import AiAuth.Library.Proto3
import AiAuth.SchemaGuard

/-!
# What the schema guard finds

A name is found if and only if it is written plainly somewhere: in front of a decimal number and a
semicolon, with nothing but white space and line comments in between, and not behind two slashes.
The syntax of the contract has other ways to write a field or an enum value.
-/
namespace AiAuth.RiskSchema
open Library

/-! ## Line comments -/

/-- Two slashes stand on the last line. -/
def Behind (s : Text) : Prop := ∃ a c, s = a ++ '/' :: '/' :: c ∧ '\n' ∉ c

/-- Whether a comment has begun and not ended, if one had at the start or not. -/
def commented : Bool → Text → Bool
  | inside, [] => inside
  | true, c :: rest => commented (c ≠ '\n') rest
  | false, c :: rest => commented (decide (c = '/' ∧ rest.head? = some '/')) rest

lemma behind_cons {c : Char} {s : Text} : Behind (c :: s) ↔
    Behind s ∨ (c = '/' ∧ s.head? = some '/' ∧ '\n' ∉ s) := by
  constructor
  · rintro ⟨a, t, heq, ht⟩
    cases a with
    | nil =>
      obtain ⟨rfl, rfl⟩ := List.cons.inj heq
      exact .inr ⟨rfl, rfl, by simpa using ht⟩
    | cons d a =>
      obtain ⟨-, rfl⟩ := List.cons.inj heq
      exact .inl ⟨a, t, rfl, ht⟩
  · rintro (⟨a, t, rfl, ht⟩ | ⟨rfl, hhead, hs⟩)
    · exact ⟨c :: a, t, rfl, ht⟩
    · cases s with
      | nil => cases hhead
      | cons d s =>
        obtain rfl : d = '/' := by simpa using hhead
        exact ⟨[], s, rfl, fun hmem => hs (List.mem_cons_of_mem _ hmem)⟩

lemma commented_iff (inside : Bool) (s : Text) :
    commented inside s = true ↔ (inside = true ∧ '\n' ∉ s) ∨ Behind s := by
  induction s generalizing inside with
  | nil => simp [commented, Behind]
  | cons c s ih =>
    cases inside with
    | true =>
      rw [commented, ih, behind_cons]
      by_cases hc : c = '\n' <;> simp [hc, eq_comm]
      tauto
    | false =>
      rw [commented, ih, behind_cons]
      simp only [decide_eq_true_eq, Bool.false_eq_true, false_and, false_or]
      tauto

section strip
variable {inside : Bool} {s t y : Text} {c : Char}

/-- What begins without a slash is read on its own. -/
lemma stripFrom_append (h : t.head? ≠ some '/') :
    stripFrom inside (s ++ t) = stripFrom inside s ++ stripFrom (commented inside s) t ∧
      commented inside (s ++ t) = commented (commented inside s) t := by
  induction s generalizing inside with
  | nil => cases inside <;> simp [stripFrom, commented]
  | cons c s ih =>
    have hhead : (s ++ t).head? = some '/' ↔ s.head? = some '/' := by
      cases s with
      | nil => simpa using h
      | cons d s => simp
    cases inside with
    | true => by_cases hc : c = '\n' <;> simp [stripFrom, commented, hc, ih]
    | false =>
      by_cases hc : c = '/' ∧ s.head? = some '/'
      · simp [stripFrom, commented, hc, ih]
      · have hno : ¬ (c = '/' ∧ (s ++ t).head? = some '/') := fun h => hc ⟨h.1, hhead.mp h.2⟩
        rw [List.cons_append, stripFrom, if_neg hno, stripFrom, if_neg hc, commented, commented,
          decide_eq_false hno, decide_eq_false hc]
        exact ⟨congrArg (c :: ·) ih.1, ih.2⟩

/-- Outside of comments the last character is kept. -/
lemma stripFrom_getLast? (h : commented inside s = false) :
    (stripFrom inside s).getLast? = s.getLast? := by
  induction s generalizing inside with
  | nil => cases inside <;> rfl
  | cons c s ih =>
    have hskip (h : commented true s = false) :
        (stripFrom true s).getLast? = (c :: s).getLast? := by
      have hne : s ≠ [] := by
        rintro rfl
        cases h
      rw [ih h, List.getLast?_cons_of_ne_nil hne]
    cases inside with
    | true =>
      rw [commented] at h
      by_cases hc : c = '\n'
      · have hrest := ih (by simpa [hc] using h)
        rw [stripFrom, if_pos hc, List.getLast?_cons, List.getLast?_cons, hrest]
      · rw [stripFrom, if_neg hc]
        exact hskip (by simpa [hc] using h)
    | false =>
      rw [commented] at h
      by_cases hc : c = '/' ∧ s.head? = some '/'
      · rw [stripFrom, if_pos hc]
        exact hskip (by simpa [hc] using h)
      · rw [stripFrom, if_neg hc, List.getLast?_cons, List.getLast?_cons, ih]
        rwa [decide_eq_false hc] at h

lemma stripFrom_quiet (hs : '/' ∉ s) (t : Text) :
    stripFrom false (s ++ t) = s ++ stripFrom false t := by
  induction s with
  | nil => rfl
  | cons c s ih =>
    obtain ⟨hc, hs⟩ := not_or.mp (fun h => hs (List.mem_cons.mpr h))
    rw [List.cons_append, stripFrom, if_neg fun h => hc h.1.symm, ih hs, List.cons_append]

lemma stripFrom_comment (hs : '\n' ∉ s) (t : Text) :
    stripFrom true (s ++ '\n' :: t) = '\n' :: stripFrom false t := by
  induction s with
  | nil => simp [stripFrom]
  | cons c s ih =>
    obtain ⟨hc, hs⟩ := not_or.mp (fun h => hs (List.mem_cons.mpr h))
    rw [List.cons_append, stripFrom, if_neg (Ne.symm hc), ih hs]

/-- Inside a comment nothing is kept before the end of the line. -/
lemma of_stripFrom_true (h : stripFrom true s = c :: y) : ∃ body rest,
    s = body ++ '\n' :: rest ∧ '\n' ∉ body ∧ c = '\n' ∧ stripFrom false rest = y := by
  induction s with
  | nil => cases h
  | cons d s ih =>
    rw [stripFrom] at h
    split_ifs at h with hd
    · obtain ⟨rfl, hrest⟩ := List.cons.inj h
      exact ⟨[], s, by rw [hd]; rfl, by simp, hd, hrest⟩
    · obtain ⟨body, rest, rfl, hbody, hc, hrest⟩ := ih h
      refine ⟨d :: body, rest, rfl, ?_, hc, hrest⟩
      rw [List.mem_cons]
      exact not_or.mpr ⟨Ne.symm hd, hbody⟩

/-- A character that is kept stands at the beginning, or ends a comment there. -/
lemma of_stripFrom_false (h : stripFrom false s = c :: y) :
    (∃ rest, s = c :: rest ∧ stripFrom false rest = y) ∨
    ∃ body rest, s = '/' :: '/' :: body ++ '\n' :: rest ∧ '\n' ∉ body ∧ c = '\n' ∧
      stripFrom false rest = y := by
  cases s with
  | nil => cases h
  | cons d s =>
    rw [stripFrom] at h
    split_ifs at h with hd
    · obtain ⟨rfl, hhead⟩ := hd
      cases s with
      | nil => cases hhead
      | cons e s =>
        obtain rfl : e = '/' := by simpa using hhead
        rw [stripFrom, if_neg (by decide)] at h
        obtain ⟨body, rest, rfl, hbody, hc, hrest⟩ := of_stripFrom_true h
        exact .inr ⟨body, rest, rfl, hbody, hc, hrest⟩
    · obtain ⟨rfl, hrest⟩ := List.cons.inj h
      exact .inl ⟨s, rfl, hrest⟩

/-- A text without line ends is kept as it stands. -/
lemma of_stripFrom_append {w : Text} (hw : '\n' ∉ w) (h : stripFrom false s = w ++ y) :
    ∃ rest, s = w ++ rest ∧ stripFrom false rest = y := by
  induction w generalizing s with
  | nil => exact ⟨s, rfl, h⟩
  | cons c w ih =>
    obtain ⟨hc, hw⟩ := not_or.mp (fun hmem => hw (List.mem_cons.mpr hmem))
    rcases of_stripFrom_false h with ⟨rest, rfl, hrest⟩ | ⟨-, -, -, -, heq, -⟩
    · obtain ⟨rest', rfl, hrest'⟩ := ih hw hrest
      exact ⟨rest', rfl, hrest'⟩
    · exact absurd heq.symm hc

/-- A character that is kept, other than a line end, stands outside of comments. -/
lemma of_stripFrom_cons {x : Text} (hc : c ≠ '\n') (h : stripFrom inside s = x ++ c :: y) :
    ∃ before after, s = before ++ c :: after ∧ stripFrom inside before = x ∧
      commented inside before = false ∧ stripFrom false after = y := by
  induction s generalizing inside x with
  | nil => cases inside <;> simp [stripFrom] at h
  | cons d s ih =>
    cases inside with
    | true =>
      by_cases hd : d = '\n'
      · rw [stripFrom, if_pos hd] at h
        cases x with
        | nil => exact absurd ((List.cons.inj h).1.symm.trans hd) hc
        | cons e x =>
          obtain ⟨rfl, hrest⟩ := List.cons.inj h
          obtain ⟨before, after, rfl, hx, hout, hy⟩ := ih hrest
          refine ⟨d :: before, after, rfl, ?_, ?_, hy⟩
          · rw [stripFrom, if_pos hd, hx]
          · simpa [commented, hd] using hout
      · rw [stripFrom, if_neg hd] at h
        obtain ⟨before, after, rfl, hx, hout, hy⟩ := ih h
        refine ⟨d :: before, after, rfl, ?_, ?_, hy⟩
        · rw [stripFrom, if_neg hd, hx]
        · simpa [commented, hd] using hout
    | false =>
      by_cases hd : d = '/' ∧ s.head? = some '/'
      · rw [stripFrom, if_pos hd] at h
        obtain ⟨before, after, rfl, hx, hout, hy⟩ := ih h
        have hne : before ≠ [] := by
          rintro rfl
          cases hout
        rw [List.head?_append_of_ne_nil _ hne] at hd
        refine ⟨d :: before, after, rfl, ?_, ?_, hy⟩
        · rw [stripFrom, if_pos hd, hx]
        · simpa [commented, hd] using hout
      · rw [stripFrom, if_neg hd] at h
        cases x with
        | nil =>
          obtain ⟨rfl, hrest⟩ := List.cons.inj h
          exact ⟨[], s, rfl, rfl, rfl, hrest⟩
        | cons e x =>
          obtain ⟨rfl, hrest⟩ := List.cons.inj h
          obtain ⟨before, after, rfl, hx, hout, hy⟩ := ih hrest
          have hd' : ¬ (d = '/' ∧ before.head? = some '/') := by
            rintro ⟨heq, hhead⟩
            exact hd ⟨heq, by rw [List.head?_append, hhead]; rfl⟩
          refine ⟨d :: before, after, rfl, ?_, ?_, hy⟩
          · rw [stripFrom, if_neg hd', hx]
          · rw [commented, decide_eq_false hd', hout]

end strip

/-! ## Plainly written names -/

section written
variable (u : Unicode)

/-- White space and line comments. -/
inductive Blank : Text → Prop
  | nil : Blank []
  | space {c g} : u.space c = true → Blank g → Blank (c :: g)
  | comment {body g} : '\n' ∉ body → Blank g → Blank ('/' :: '/' :: body ++ '\n' :: g)

/-- A whole word is assigned a decimal number, and no two slashes stand before it on its line. -/
inductive Written (s name : Text) : Prop
  | intro {before blank₁ blank₂ number blank₃ after : Text} :
    s = before ++ (name ++ (blank₁ ++ '=' :: (blank₂ ++ (number ++ (blank₃ ++ ';' :: after))))) →
    ¬ Behind before → (∀ c, before.getLast? = some c → u.word c = false) →
    name ≠ [] → (∀ c ∈ name, u.word c = true) →
    Blank u blank₁ → Blank u blank₂ → Blank u blank₃ →
    number ≠ [] → (∀ c ∈ number, u.digit c = true) → Written s name

variable {u} {s t y g w name : Text}

lemma Blank.strip (hg : Blank u g) (t : Text) :
    ∃ w, (∀ c ∈ w, u.space c = true) ∧ stripFrom false (g ++ t) = w ++ stripFrom false t := by
  obtain ⟨-, -, -, -, -, -, hslash, hnewline⟩ := marks_apart u
  induction hg with
  | nil => exact ⟨[], by simp, rfl⟩
  | @space c g hc _ ih =>
    obtain ⟨w, hw, hstrip⟩ := ih
    refine ⟨c :: w, List.forall_mem_cons.mpr ⟨hc, hw⟩, ?_⟩
    have hc' : c ≠ '/' := by
      rintro rfl
      rw [hslash] at hc
      cases hc
    rw [List.cons_append, stripFrom, if_neg fun h => hc' h.1, hstrip, List.cons_append]
  | @comment body g hbody _ ih =>
    obtain ⟨w, hw, hstrip⟩ := ih
    refine ⟨'\n' :: w, List.forall_mem_cons.mpr ⟨hnewline, hw⟩, ?_⟩
    have htext :
        '/' :: '/' :: body ++ '\n' :: g ++ t = '/' :: '/' :: (body ++ '\n' :: (g ++ t)) := by
      simp
    rw [htext, stripFrom, if_pos ⟨rfl, rfl⟩, stripFrom, if_neg (by decide),
      stripFrom_comment hbody, hstrip, List.cons_append]

/-- White space that is kept was white space and line comments. -/
lemma exists_blank (hw : ∀ c ∈ w, u.space c = true) (h : stripFrom false s = w ++ y) :
    ∃ g rest, s = g ++ rest ∧ Blank u g ∧ stripFrom false rest = y := by
  induction w generalizing s with
  | nil => exact ⟨[], s, rfl, .nil, h⟩
  | cons c w ih =>
    obtain ⟨hc, hw⟩ := List.forall_mem_cons.mp hw
    rcases of_stripFrom_false h with ⟨rest, rfl, hrest⟩ | ⟨body, rest, rfl, hbody, -, hrest⟩
    · obtain ⟨g, rest', rfl, hg, hrest'⟩ := ih hw hrest
      exact ⟨c :: g, rest', rfl, .space hc hg, hrest'⟩
    · obtain ⟨g, rest', rfl, hg, hrest'⟩ := ih hw hrest
      exact ⟨_, rest', by simp, .comment hbody hg, hrest'⟩

/-- What is looked for begins with a whole word. -/
lemma reached_word {x rest : Text} {a : Assignment u}
    (h : (assignment u).Reached 0 x (a.text ++ rest)) :
    ∀ c, x.getLast? = some c → u.word c = false := by
  intro c hc
  cases h with
  | first hlen =>
    rw [List.length_eq_zero_iff.mp hlen] at hc
    cases hc
  | @next front d heq hnone =>
    obtain rfl : d = c := by simpa [heq] using hc
    by_contra hword
    let a' : Assignment u := { a with
      name := d :: a.name
      name_ne := List.cons_ne_nil _ _
      name_word := List.forall_mem_cons.mpr ⟨by simpa using hword, a.name_word⟩ }
    have hmatch := matchAssignment_text a' rest
    have htext : a'.text ++ rest = d :: (a.text ++ rest) := by simp [a', Assignment.text]
    rw [htext] at hmatch
    exact absurd (hnone.symm.trans hmatch) (by simp)
  | @past front found b heq hne hfound =>
    obtain ⟨d, rest', htext, -, hlen⟩ := exists_assignment hfound
    obtain ⟨rfl, -⟩ := List.append_inj htext hlen.symm
    rw [heq, List.getLast?_append_of_ne_nil _ hne, d.getLast?_text] at hc
    obtain rfl := Option.some.inj hc
    exact (marks_apart u).2.1

/-- An assignment that is left when the comments are gone was written plainly. -/
lemma written_of_strip {x rest : Text} {a : Assignment u}
    (h : stripFrom false s = x ++ (a.text ++ rest))
    (hlast : ∀ c, x.getLast? = some c → u.word c = false) : Written u s a.name := by
  obtain ⟨-, -, hslash, hnewline, -⟩ := marks_apart u
  have hnumber : '\n' ∉ a.number :=
    Assignment.outside hnewline fun c hc => u.digit_word c (a.number_digit c hc)
  obtain ⟨c, name, hname⟩ := List.exists_cons_of_ne_nil a.name_ne
  have hc := a.name_word c (hname ▸ List.mem_cons_self)
  have hcons : a.text ++ rest = c :: (name ++ (a.space₁ ++ '=' :: (a.space₂ ++ (a.number ++
      (a.space₃ ++ ';' :: rest))))) := by
    simp [Assignment.text, hname]
  rw [hcons] at h
  obtain ⟨before, t, rfl, hbefore, hout, ht⟩ := of_stripFrom_cons (by
    rintro rfl
    rw [hnewline] at hc
    cases hc) h
  obtain ⟨t₁, rfl, ht₁⟩ := of_stripFrom_append
    (fun hmem => Assignment.outside hnewline a.name_word (hname ▸ List.mem_cons_of_mem c hmem)) ht
  obtain ⟨blank₁, t₂, rfl, hblank₁, ht₂⟩ := exists_blank a.space₁_space ht₁
  obtain ⟨t₃, rfl, ht₃⟩ := of_stripFrom_append (w := ['=']) (by decide) ht₂
  obtain ⟨blank₂, t₄, rfl, hblank₂, ht₄⟩ := exists_blank a.space₂_space ht₃
  obtain ⟨t₅, rfl, ht₅⟩ := of_stripFrom_append hnumber ht₄
  obtain ⟨blank₃, t₆, rfl, hblank₃, ht₆⟩ := exists_blank a.space₃_space ht₅
  obtain ⟨t₇, rfl, -⟩ := of_stripFrom_append (w := [';']) (by decide) ht₆
  refine .intro (by rw [hname]; rfl) ?_ ?_ a.name_ne a.name_word hblank₁ hblank₂ hblank₃
    a.number_ne a.number_digit
  · intro hbehind
    rw [(commented_iff false before).mpr (.inr hbehind)] at hout
    cases hout
  · intro d hd
    rw [← stripFrom_getLast? hout, hbefore] at hd
    exact hlast d hd

/-- What is written plainly is left when the comments are gone. -/
lemma strip_of_written (h : Written u s name) : ∃ (x rest : Text) (a : Assignment u),
    stripFrom false s = x ++ (a.text ++ rest) ∧ a.name = name ∧
      ∀ c, x.getLast? = some c → u.word c = false := by
  obtain ⟨-, -, hslash, -⟩ := marks_apart u
  obtain @⟨before, blank₁, blank₂, number, blank₃, after, heq, hbehind, hlast, hne, hword, hblank₁,
    hblank₂, hblank₃, hne', hdigit⟩ := h
  have hout : commented false before = false := by
    by_contra hno
    exact (((commented_iff false before).mp (by simpa using hno)).elim (fun h => by cases h.1)
      hbehind)
  have hnumber := Assignment.outside hslash fun c hc => u.digit_word c (hdigit c hc)
  obtain ⟨w₃, hw₃, hstrip₃⟩ := hblank₃.strip (';' :: after)
  obtain ⟨w₂, hw₂, hstrip₂⟩ := hblank₂.strip (number ++ (blank₃ ++ ';' :: after))
  obtain ⟨w₁, hw₁, hstrip₁⟩ :=
    hblank₁.strip ('=' :: (blank₂ ++ (number ++ (blank₃ ++ ';' :: after))))
  let a : Assignment u := ⟨name, w₁, w₂, number, w₃, hne, hword, hw₁, hw₂, hne', hdigit, hw₃⟩
  refine ⟨stripFrom false before, stripFrom false after, a, ?_, rfl, ?_⟩
  · have hhead :
        (name ++ (blank₁ ++ '=' :: (blank₂ ++ (number ++ (blank₃ ++ ';' :: after))))).head? ≠
        some '/' := by
      rw [List.head?_append_of_ne_nil _ hne]
      exact fun hmem => Assignment.outside hslash hword (List.mem_of_head? hmem)
    have hmark (c : Char) (hc : c ≠ '/') (t : Text) :
        stripFrom false (c :: t) = c :: stripFrom false t :=
      stripFrom_quiet (s := [c]) (by simpa using hc.symm) t
    rw [heq, (stripFrom_append hhead).1, hout,
      stripFrom_quiet (Assignment.outside hslash hword), hstrip₁,
      hmark _ (by decide), hstrip₂, stripFrom_quiet hnumber, hstrip₃, hmark _ (by decide)]
    simp [a, Assignment.text]
  · rwa [stripFrom_getLast? hout]

/-- The guard finds exactly the names that are written plainly. -/
theorem mem_findall_iff :
    name ∈ (assignment u).findall (stripComments s) ↔ Written u s name := by
  constructor
  · intro h
    obtain ⟨x, after, n, hstrip, hrun, hreached⟩ := Matcher.mem_scan h
    obtain ⟨a, rest, rfl, rfl, -⟩ := exists_assignment hrun
    exact written_of_strip hstrip (reached_word hreached)
  · intro h
    obtain ⟨x, rest, a, hstrip, rfl, hlast⟩ := strip_of_written h
    rw [stripComments, hstrip]
    refine Matcher.scan_complete (matchAssignment_text a rest) (Nat.zero_le _) ?_
    intro front back b n hx hne hrun
    obtain ⟨d, rest', htext, -, rfl⟩ := exists_assignment hrun
    refine Assignment.apart htext hne fun c hc => hlast c ?_
    rw [hx, List.getLast?_append_of_ne_nil _ hne, hc]

end written
/-! ## The contract -/

/-- A name that contains a forbidden token in any case. -/
def Forbidden (name : Text) : Prop := ∃ tok ∈ forbidden, tok <:+: name.map Char.toLower

instance (name : Text) : Decidable (Forbidden name) :=
  inferInstanceAs (Decidable (∃ tok ∈ forbidden, _))

/-- Some message field or enum value has a forbidden name. -/
def Offends (files : List Proto3.File) : Prop := ∃ f ∈ files, ∃ name ∈ f.names, Forbidden name

/-- Somewhere in the files, as they are read, a forbidden name is written plainly. -/
def PlainlyNamed (u : Unicode) (files : List Proto3.File) : Prop :=
  ∃ name, Written u (asRead (files.map (·.text))) name ∧ Authorising u name

/-- The guard stops a contract that offends if and only if a forbidden name is written plainly. -/
theorem guard_sound_iff (u : Unicode) (files : List Proto3.File) :
    (Offends files → (main u (files.map (·.text))).code = 1) ↔
      (Offends files → PlainlyNamed u files) := by
  refine forall_congr' fun hoffends => ?_
  have hne : files.map (·.text) ≠ [] := by
    obtain ⟨f, hf, -⟩ := hoffends
    exact List.ne_nil_of_mem (List.mem_map_of_mem hf)
  rw [main_code, or_iff_right hne, PlainlyNamed]
  simp only [assignedNames, mem_findall_iff]

lemma toNat_of_word {c : Char} (h : (c.isAlphanum || c == '_') = true) :
    48 ≤ c.toNat ∧ c.toNat < 128 := by
  have hrange : ∀ lo hi : Char, lo.val ≤ c.val ∧ c.val ≤ hi.val →
      lo.toNat ≤ c.toNat ∧ c.toNat ≤ hi.toNat := fun lo hi hc =>
    ⟨UInt32.le_iff_toNat_le.mp hc.1, UInt32.le_iff_toNat_le.mp hc.2⟩
  have hpair : ∀ lo hi : Char, (decide (lo.val ≤ c.val) && decide (c.val ≤ hi.val)) = true →
      lo.toNat ≤ c.toNat ∧ c.toNat ≤ hi.toNat := fun lo hi hc =>
    hrange lo hi (by simpa using hc)
  have hbounds : 'A'.toNat = 65 ∧ 'Z'.toNat = 90 ∧ 'a'.toNat = 97 ∧ 'z'.toNat = 122 ∧
    '0'.toNat = 48 ∧ '9'.toNat = 57 ∧ '_'.toNat = 95 := by decide
  rcases (Bool.or_eq_true _ _).mp h with h | h
  · rcases (Bool.or_eq_true _ _).mp h with h | hdigit
    · rcases (Bool.or_eq_true _ _).mp h with hupper | hlower
      · have := hrange 'A' 'Z' (of_decide_eq_true hupper)
        omega
      · have := hpair 'a' 'z' hlower
        omega
    · have := hpair '0' '9' hdigit
      omega
  · obtain rfl := eq_of_beq h
    omega

/-! ## Plain declarations -/

/-- A name, a decimal number and a semicolon, with only white space and line comments between
them. -/
inductive PlainPlace : List Proto3.Lexeme → Prop
  | intro {name equals number semicolon rest} : name.token.kind = .ident →
    equals.token = ⟨.symbol, ['=']⟩ → semicolon.token = ⟨.symbol, [';']⟩ →
    number.token.text ≠ [] → (∀ c ∈ number.token.text, c.isDigit = true) →
    (∀ l ∈ [equals, number, semicolon], ∀ t ∈ l.trivia, t.gap ≠ .block) →
    PlainPlace (name :: equals :: number :: semicolon :: rest)

section places
variable {u : Unicode} {s name : Text}

lemma blank_of_trivia {ts : List Proto3.Trivia} (hformed : ∀ t ∈ ts, t.WellFormed)
    (hblock : ∀ t ∈ ts, t.gap ≠ .block) : Blank u (Proto3.triviaText ts) := by
  induction ts with
  | nil => exact .nil
  | cons t ts ih =>
    obtain ⟨ht, hformed⟩ := List.forall_mem_cons.mp hformed
    obtain ⟨hgap, hblock⟩ := List.forall_mem_cons.mp hblock
    have hrest := ih hformed hblock
    rw [Proto3.triviaText, List.flatMap_cons]
    cases ht with
    | @space c hc =>
      refine .space ?_ hrest
      simp only [Proto3.isSpace, List.mem_cons, List.not_mem_nil, or_false,
        decide_eq_true_eq] at hc
      rcases hc with rfl | rfl | rfl | rfl | rfl | rfl <;>
        exact (u.space_ascii _ (by decide)).trans (by decide)
    | @line body hbody =>
      have htext : '/' :: '/' :: body ++ ['\n'] ++ ts.flatMap (·.text) =
          '/' :: '/' :: body ++ '\n' :: ts.flatMap (·.text) := by simp
      rw [htext]
      exact .comment hbody hrest
    | block => exact absurd rfl hgap

lemma word_of_isDelimiter {c : Char} (h : Proto3.isDelimiter c = true) : u.word c = false := by
  have hall : ([' ', '\t', '\n', '\r', Char.ofNat 11, Char.ofNat 12] ++
      ";=,.:/+-<>()[]\x7b\x7d".toList ++ [Proto3.quote, Proto3.apostrophe]).all fun c =>
        decide (c.toNat < 128) && !(c.isAlphanum || c == '_') := by rfl
  have hmem : c ∈ [' ', '\t', '\n', '\r', Char.ofNat 11, Char.ofNat 12] ++
      ";=,.:/+-<>()[]\x7b\x7d".toList ++ [Proto3.quote, Proto3.apostrophe] := by
    simp only [Proto3.isDelimiter, Proto3.isSpace, Proto3.isSymbol, Bool.or_eq_true,
      decide_eq_true_eq, beq_iff_eq] at h
    rcases h with ((h | h) | rfl) | rfl
    · exact List.mem_append_left _ (List.mem_append_left _ h)
    · exact List.mem_append_left _ (List.mem_append_right _ h)
    · exact List.mem_append_right _ (by simp)
    · exact List.mem_append_right _ (by simp)
  have hc := List.all_eq_true.mp hall c hmem
  rw [Bool.and_eq_true, decide_eq_true_eq, Bool.not_eq_true'] at hc
  exact u.not_word hc.1 hc.2

lemma readText_of_notMem (h : '\r' ∉ s) : readText s = s := by
  induction s with
  | nil => rfl
  | cons c s ih =>
    obtain ⟨hc, hs⟩ := not_or.mp fun hmem => h (List.mem_cons.mpr hmem)
    rw [readText, if_neg (Ne.symm hc), ih hs]

lemma mem_intercalate_split {x : Text} {xs : List Text} (h : x ∈ xs) : ∃ a b,
    ['\n'].intercalate xs = a ++ (x ++ b) ∧ (a = [] ∨ a.getLast? = some '\n') := by
  induction xs with
  | nil => cases h
  | cons y xs ih =>
    cases xs with
    | nil =>
      obtain rfl := List.mem_singleton.mp h
      exact ⟨[], [], by simp [List.intercalate], .inl rfl⟩
    | cons z xs =>
      have hcons :
          ['\n'].intercalate (y :: z :: xs) = y ++ '\n' :: ['\n'].intercalate (z :: xs) := by
        simp [List.intercalate]
      rw [hcons]
      rcases List.mem_cons.mp h with rfl | h
      · exact ⟨[], _, rfl, .inl rfl⟩
      · obtain ⟨a, b, heq, ha⟩ := ih h
        refine ⟨y ++ '\n' :: a, b, by rw [heq]; simp, .inr ?_⟩
        rcases ha with rfl | ha
        · simp
        · rw [List.getLast?_append_of_ne_nil _ (by simp), List.getLast?_cons, ha]
          rfl

/-- Two slashes do not reach behind the end of their line. -/
lemma behind_of_line {a t : Text} (ha : a.getLast? = some '\n') (h : Behind (a ++ t)) :
    Behind t := by
  obtain ⟨a', rfl⟩ := List.getLast?_eq_some_iff.mp ha
  have hin := (commented_iff false _).mpr (.inr h)
  rw [List.append_assoc, List.singleton_append, (stripFrom_append (by simp)).2] at hin
  have hline : ∀ inside, commented inside ('\n' :: t) = commented false t := by
    intro inside
    cases inside <;> simp [commented]
  rw [hline] at hin
  exact ((commented_iff false t).mp hin).resolve_left (by simp)

/-- What is written plainly in a file is written plainly in all of them together. -/
lemma Written.among {a : Text} (h : Written u s name) (ha : a = [] ∨ a.getLast? = some '\n')
    (b : Text) : Written u (a ++ (s ++ b)) name := by
  obtain @⟨before, blank₁, blank₂, number, blank₃, after, heq, hbehind, hlast, hne, hword, hblank₁,
    hblank₂, hblank₃, hne', hdigit⟩ := h
  have htext : a ++ (s ++ b) = (a ++ before) ++ (name ++ (blank₁ ++ '=' :: (blank₂ ++ (number ++
      (blank₃ ++ ';' :: (after ++ b)))))) := by
    rw [heq]
    simp
  rcases ha with rfl | ha
  · exact .intro htext hbehind hlast hne hword hblank₁ hblank₂ hblank₃ hne' hdigit
  · refine .intro htext (fun h => hbehind (behind_of_line ha h)) ?_ hne hword hblank₁ hblank₂
      hblank₃ hne' hdigit
    intro c hc
    rw [List.getLast?_append, ha] at hc
    cases hbefore : before.getLast? with
    | none =>
      rw [hbefore] at hc
      obtain rfl := Option.some.inj hc
      exact (marks_apart u).2.2.2.1
    | some d =>
      rw [hbefore] at hc
      obtain rfl := Option.some.inj hc
      exact hlast d hbefore

/-- A plain declaration is written plainly, with a name in ASCII. -/
lemma PlainPlace.written {text : Text} {tokens place : List Proto3.Lexeme}
    (h : PlainPlace place) (hlex : Proto3.lex text = some tokens) (hplace : place <:+ tokens)
    (hout : ¬ Behind (Proto3.textBefore tokens place)) :
    Written u text (Proto3.nameAt place) ∧ ∀ c ∈ Proto3.nameAt place, c.toNat < 128 := by
  obtain ⟨⟨rest, htext⟩, hformed, hdelim⟩ := Proto3.lexFrom_spec hlex
  obtain ⟨before, rfl⟩ := hplace
  obtain @⟨name, equals, number, semicolon, after, hkind, hequals, hsemicolon, hne, hdigit,
    hblock⟩ := h
  have hbefore : Proto3.textBefore (before ++ name :: equals :: number :: semicolon :: after)
      (name :: equals :: number :: semicolon :: after) =
        before.flatMap Proto3.Lexeme.text ++ Proto3.triviaText name.trivia := by
    rw [Proto3.textBefore, List.length_append, Nat.add_sub_cancel, List.take_left]
    rfl
  rw [hbefore] at hout
  have hblank (l : Proto3.Lexeme) (hl : l ∈ [equals, number, semicolon]) :
      Blank u (Proto3.triviaText l.trivia) := by
    refine blank_of_trivia (hformed l ?_).trivia (hblock l hl)
    rw [List.mem_append]
    simp only [List.mem_cons, List.not_mem_nil, or_false] at hl ⊢
    tauto
  obtain ⟨hname, hword⟩ := (hformed name (by simp)).ident hkind
  have hparts : text = (before.flatMap Proto3.Lexeme.text ++ Proto3.triviaText name.trivia) ++
      (name.token.text ++ (Proto3.triviaText equals.trivia ++ '=' ::
        (Proto3.triviaText number.trivia ++ (number.token.text ++
          (Proto3.triviaText semicolon.trivia ++ ';' ::
            (after.flatMap Proto3.Lexeme.text ++ rest)))))) := by
    rw [htext]
    simp [Proto3.Lexeme.text, hequals, hsemicolon]
  refine ⟨.intro hparts hout ?_ hname ?_ (hblank equals (by simp)) (hblank number (by simp))
    (hblank semicolon (by simp)) hne ?_, fun c hc => (toNat_of_word (hword c hc)).2⟩
  · intro c hc
    refine word_of_isDelimiter (hdelim before name _ rfl hkind c ?_)
    rw [hc]
    rfl
  · intro c hc
    rw [u.word_ascii c (toNat_of_word (hword c hc)).2]
    exact hword c hc
  · intro c hc
    have hword : (c.isAlphanum || c == '_') = true := by
      simp [Char.isAlphanum, hdigit c hc]
    rw [u.digit_ascii c (toNat_of_word hword).2]
    exact hdigit c hc

end places

/-- A forbidden name is found where it is declared plainly, not behind two slashes. -/
theorem plain_place_found (u : Unicode) {files : List Proto3.File} {f : Proto3.File} (hf : f ∈ files)
    (hcr : '\r' ∉ f.text) {tokens place : List Proto3.Lexeme} (hlex : Proto3.lex f.text = some tokens)
    (hplace : place ∈ f.places) (hplain : PlainPlace place)
    (hout : ¬ Behind (Proto3.textBefore tokens place))
    (hname : Forbidden (Proto3.nameAt place)) : PlainlyNamed u files := by
  obtain ⟨tokens', hlex', hsuffix⟩ := Proto3.declarations_suffix f.valid
  obtain rfl := Option.some.inj (hlex.symm.trans hlex')
  obtain ⟨hwritten, hascii⟩ := hplain.written (u := u) hlex (hsuffix place hplace) hout
  obtain ⟨a, b, hsplit, ha⟩ := mem_intercalate_split
    (List.mem_map_of_mem (f := readText) (List.mem_map_of_mem (f := (·.text)) hf))
  rw [readText_of_notMem hcr] at hsplit
  refine ⟨_, hsplit ▸ hwritten.among ha b, ?_⟩
  rwa [Authorising, u.lower_ascii _ hascii]

namespace Worked

/-- The white space among the ASCII characters. -/
def isSpace (c : Char) : Bool :=
  c == ' ' || (9 ≤ c.toNat && c.toNat ≤ 13) || (28 ≤ c.toNat && c.toNat ≤ 31)

lemma word_of_digit (c : Char) (h : c.isDigit = true) : (c.isAlphanum || c == '_') = true := by
  rw [Char.isAlphanum, h, Bool.or_true, Bool.true_or]

lemma not_word_of_space (c : Char) (h : isSpace c = true) : (c.isAlphanum || c == '_') = false := by
  have hsmall : c.toNat < 48 := by
    simp only [isSpace, Bool.or_eq_true, beq_iff_eq, Bool.and_eq_true, decide_eq_true_eq] at h
    rcases h with (rfl | h) | h
    · decide
    · omega
    · omega
  by_contra hword
  have hlarge := (toNat_of_word (Bool.eq_true_of_not_eq_false hword)).1
  omega

/-- The text functions of the language, on ASCII. -/
def unicode : Unicode where
  word c := c.isAlphanum || c == '_'
  digit c := c.isDigit
  space := isSpace
  lower s := s.map Char.toLower
  word_ascii _ _ := rfl
  digit_ascii _ _ := rfl
  space_ascii _ _ := rfl
  lower_ascii _ _ := rfl
  digit_word := word_of_digit
  space_word := not_word_of_space

/-- A field with an option behind its number. -/
def sneaky : Text :=
  "syntax = \"proto3\"; message RiskAssessment \x7b bool allow = 1 [deprecated = true]; \x7d".toList

end Worked

/-- A field that authorises passes the guard. -/
theorem sneaky_passes : ∃ f : Proto3.File, f.text = Worked.sneaky ∧
    f.names = ["allow".toList] ∧ Offends [f] ∧ (main Worked.unicode [f.text]).code = 0 := by
  have hvalid : (Proto3.declarations Worked.sneaky).map (·.map Proto3.nameAt) =
      some ["allow".toList] := by decide +kernel
  obtain ⟨places, hplaces, hnames⟩ := Option.map_eq_some_iff.mp hvalid
  have hpasses : (main Worked.unicode [Worked.sneaky]).code = 0 := by decide +kernel
  refine ⟨⟨Worked.sneaky, places, hplaces⟩, rfl, hnames, ?_, hpasses⟩
  refine ⟨_, List.mem_singleton_self _, "allow".toList, ?_, by decide +kernel⟩
  rw [Proto3.File.names, hnames]
  exact List.mem_singleton_self _

end AiAuth.RiskSchema
