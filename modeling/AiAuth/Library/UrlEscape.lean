import AiAuth.Library.UrlBase

/-!
# Escaped components

A component that is escaped and decoded again is as it was, wherever its escapes may stand; and
what escaping keeps out of a text.
-/
namespace AiAuth.Library.Url

/-! ## Components -/

/-- A byte as it is written in a component. -/
def escapeByte (mode : Encoding) (c : UInt8) : Bytes :=
  if c = ch ' ' && mode = .queryComponent then [ch '+']
  else if shouldEscape c mode then pct c
  else [c]

lemma escape_cons (mode : Encoding) (c : UInt8) (s : Bytes) :
    escape mode (c :: s) = escapeByte mode c ++ escape mode s := by
  rw [escape, List.flatMap_cons]
  rfl

lemma escape_append (mode : Encoding) (s t : Bytes) :
    escape mode (s ++ t) = escape mode s ++ escape mode t := List.flatMap_append

/-- The hexadecimal digits of a byte give the byte. -/
lemma upperhex_spec (c : UInt8) : ishex (upperhex (c / 16)) = true ∧
    ishex (upperhex (c % 16)) = true ∧
    unhex (upperhex (c / 16)) * 16 + unhex (upperhex (c % 16)) = c := by
  have hall : ∀ c, (ishex (upperhex (c / 16)) && ishex (upperhex (c % 16)) &&
      unhex (upperhex (c / 16)) * 16 + unhex (upperhex (c % 16)) == c) = true :=
    forall_byte (by decide +kernel)
  have hc := hall c
  simp only [Bool.and_eq_true, beq_iff_eq] at hc
  exact ⟨hc.1.1, hc.1.2, hc.2⟩

/-- The escape of the byte may stand in the component. -/
def mayEscape (mode : Encoding) (c : UInt8) : Bool :=
  escapeAllowed mode (upperhex (c / 16)) (upperhex (c % 16))

lemma unescape_pct_mode {mode : Encoding} {c : UInt8} (h : mayEscape mode c = true) (s : Bytes) :
    unescape mode (pct c ++ s) = (unescape mode s).map (c :: ·) := by
  obtain ⟨hhigh, hlow, hval⟩ := upperhex_spec c
  have hallowed : (ishex (upperhex (c / 16)) && ishex (upperhex (c % 16)) &&
      escapeAllowed mode (upperhex (c / 16)) (upperhex (c % 16))) = true := by
    simp only [hhigh, hlow, Bool.true_and]
    exact h
  rw [pct, List.cons_append, List.cons_append, List.cons_append, List.nil_append, unescape,
    if_pos rfl]
  exact (if_pos hallowed).trans (by rw [hval])

/-- The bytes with a meaning in the encoding itself are never written as they are. -/
lemma shouldEscape_marks (mode : Encoding) : shouldEscape (ch '%') mode = true ∧
    shouldEscape (ch '+') .queryComponent = true := by
  cases mode <;> exact ⟨rfl, rfl⟩

/-- A byte that is written can be read again if its escape, where it is escaped, may stand
there. -/
lemma unescape_escapeByte {mode : Encoding} {c : UInt8}
    (h : shouldEscape c mode = true → mayEscape mode c = true) (s : Bytes) :
    unescape mode (escapeByte mode c ++ s) = (unescape mode s).map (c :: ·) := by
  unfold escapeByte
  by_cases hspace : (decide (c = ch ' ') && decide (mode = .queryComponent)) = true
  · rw [if_pos hspace]
    simp only [Bool.and_eq_true, decide_eq_true_eq] at hspace
    obtain ⟨rfl, rfl⟩ := hspace
    rw [List.singleton_append, unescape.eq_def]
    exact (if_neg (by decide)).trans (if_pos (by decide))
  · rw [if_neg hspace]
    by_cases hesc : shouldEscape c mode = true
    · rw [if_pos hesc]
      exact unescape_pct_mode (h hesc) s
    · rw [if_neg hesc, List.singleton_append, unescape.eq_def]
      have hpercent : c ≠ ch '%' := by
        rintro rfl
        exact hesc (shouldEscape_marks mode).1
      have hplus : ¬ (decide (c = ch '+') && decide (mode = .queryComponent)) = true := by
        simp only [Bool.and_eq_true, decide_eq_true_eq]
        rintro ⟨rfl, rfl⟩
        exact hesc (shouldEscape_marks .path).2
      dsimp only
      rw [if_neg hpercent, if_neg hplus, if_neg]
      simp [hesc]

theorem unescape_escape_append {mode : Encoding} {s : Bytes}
    (h : ∀ c ∈ s, shouldEscape c mode = true → mayEscape mode c = true) (t : Bytes) :
    unescape mode (escape mode s ++ t) = (unescape mode t).map (s ++ ·) := by
  induction s with
  | nil => simp [escape]
  | cons c s ih =>
    obtain ⟨hc, hs⟩ := List.forall_mem_cons.mp h
    rw [escape_cons, List.append_assoc, unescape_escapeByte hc, ih hs, Option.map_map]
    rfl

theorem unescape_escape {mode : Encoding} {s : Bytes}
    (h : ∀ c ∈ s, shouldEscape c mode = true → mayEscape mode c = true) :
    unescape mode (escape mode s) = some s := by
  simpa [unescape] using unescape_escape_append h []

/-- Outside of hosts every escape may stand. -/
lemma mayEscape_of_ne {mode : Encoding} (hhost : mode ≠ .host) (hzone : mode ≠ .zone) (c : UInt8) :
    mayEscape mode c = true := by
  cases mode <;> first | rfl | contradiction

/-- What holds of the bytes that stand for themselves, and of those of an escape, holds of
every written byte. -/
lemma forall_mem_escape {mode : Encoding} {p : UInt8 → Bool} {s : Bytes}
    (hplus : p (ch '+') = true) (hpct : ∀ c, (pct c).all p = true)
    (hself : ∀ c ∈ s, shouldEscape c mode = false → p c = true) :
    ∀ b ∈ escape mode s, p b = true := by
  intro b hb
  obtain ⟨c, hmem, hc⟩ := List.mem_flatMap.mp hb
  split_ifs at hc with hspace hesc
  · rw [List.mem_singleton.mp hc]
    exact hplus
  · exact List.all_eq_true.mp (hpct c) b hc
  · rw [List.mem_singleton.mp hc]
    exact hself c hmem (by simpa using hesc)

/-- A printable byte that begins neither a query nor a fragment. -/
def isPlain (c : UInt8) : Bool := 32 < c && c < 127 && c != ch '#' && c != ch '?'

lemma escape_isPlain {mode : Encoding} (hmode : mode ≠ .fragment) (s : Bytes) :
    ∀ b ∈ escape mode s, isPlain b = true := by
  refine forall_mem_escape rfl (forall_byte (by decide +kernel)) fun c _ hc => ?_
  have hall : ∀ c, ([Encoding.path, .pathSegment, .host, .zone, .userPassword,
      .queryComponent].all fun mode => shouldEscape c mode || isPlain c) = true :=
    forall_byte (by decide +kernel)
  have hmem : mode ∈ [Encoding.path, .pathSegment, .host, .zone, .userPassword,
      .queryComponent] := by
    cases mode
    case fragment => exact absurd rfl hmode
    all_goals simp
  simpa [hc] using List.all_eq_true.mp (hall c) mode hmem

/-- A byte that is no part of an escape is written only for itself. -/
lemma notMem_escape_of {mode : Encoding} {sep : UInt8} {s : Bytes}
    (hmark : sep ∉ ascii "%+0123456789ABCDEF") (hsep : sep ∈ s → shouldEscape sep mode = true) :
    sep ∉ escape mode s := by
  intro hmem
  have hpct : ∀ c, ((pct c).all fun b => b ∈ ascii "%+0123456789ABCDEF") = true :=
    forall_byte (by decide +kernel)
  have hne := forall_mem_escape (p := fun b => b != sep) ?_ (fun c => ?_) (fun c hc hself => ?_)
    sep hmem
  · simp at hne
  · rw [bne_iff_ne]
    exact fun heq => hmark (heq ▸ by decide)
  · refine List.all_eq_true.mpr fun b hb => bne_iff_ne.mpr ?_
    rintro rfl
    exact hmark (of_decide_eq_true (List.all_eq_true.mp (hpct c) _ hb))
  · rw [bne_iff_ne]
    rintro rfl
    rw [hsep hc] at hself
    cases hself

/-- A separator that has to be escaped does not occur. -/
lemma notMem_escape {mode : Encoding} {sep : UInt8} (hsep : shouldEscape sep mode = true)
    (hmark : sep ∉ ascii "%+0123456789ABCDEF") (s : Bytes) : sep ∉ escape mode s :=
  notMem_escape_of hmark fun _ => hsep

/-! ## Separators -/

theorem cutLast_append {sep : UInt8} {b : Bytes} (hb : sep ∉ b) (a : Bytes) :
    cutLast sep (a ++ sep :: b) = some (a, b) := by
  have hafter : (a ++ sep :: b).reverse.takeWhile (· != sep) = b.reverse := by
    have hall : ∀ c ∈ b.reverse, (c != sep) = true := fun c hc => by
      rw [bne_iff_ne]
      rintro rfl
      exact hb (List.mem_reverse.mp hc)
    rw [List.reverse_append, List.reverse_cons, List.append_assoc,
      List.takeWhile_append_of_pos hall]
    simp
  have hlen : (a ++ sep :: b).length - b.reverse.length - 1 = a.length := by
    simp only [List.length_append, List.length_cons, List.length_reverse]
    omega
  rw [cutLast, if_pos (by simp)]
  simp only [hafter, hlen, List.take_left, List.reverse_reverse]

theorem cutLast_of_notMem {sep : UInt8} {s : Bytes} (h : sep ∉ s) : cutLast sep s = none :=
  if_neg h

theorem cutLast_some {sep : UInt8} {s a b : Bytes} (h : cutLast sep s = some (a, b)) :
    s = a ++ sep :: b ∧ sep ∉ b := by
  have hmem : sep ∈ s := by
    by_contra hno
    rw [cutLast_of_notMem hno] at h
    cases h
  obtain ⟨b', a', hrev, hb'⟩ := List.eq_append_cons_of_mem (List.mem_reverse.mpr hmem)
  have hs : s = a'.reverse ++ sep :: b'.reverse := by
    rw [← List.reverse_reverse s, hrev]
    simp
  have hb : sep ∉ b'.reverse := fun hc => hb' (List.mem_reverse.mp hc)
  rw [hs, cutLast_append hb] at h
  obtain ⟨rfl, rfl⟩ := Prod.mk.inj (Option.some.inj h)
  exact ⟨hs, hb⟩

/-- Decoding goes on from a byte that is no part of an escape as from the start. -/
lemma unescape_append_sep {mode : Encoding} {c : UInt8} (hhex : ishex c = false)
    (a b : Bytes) : unescape mode (a ++ c :: b) =
      (unescape mode a).bind fun a' => (unescape mode (c :: b)).map (a' ++ ·) := by
  induction a using unescape.induct mode with
  | case1 => simp [unescape]
  | case2 h l rest hallowed ih =>
    rw [List.cons_append, List.cons_append, List.cons_append, unescape, if_pos rfl, unescape,
      if_pos rfl]
    refine (if_pos hallowed).trans ?_
    rw [if_pos hallowed, ih]
    cases unescape mode rest <;> simp [Function.comp_def]
  | case3 h l rest hallowed =>
    rw [List.cons_append, List.cons_append, List.cons_append, unescape, if_pos rfl, unescape,
      if_pos rfl]
    refine (if_neg hallowed).trans ?_
    rw [if_neg hallowed]
    rfl
  | case4 rest hshort =>
    have hnone : unescape mode (ch '%' :: rest) = none := by
      rw [unescape, if_pos rfl]
      exact hshort
    rw [hnone]
    rcases rest with _ | ⟨h, _ | ⟨l, rest⟩⟩
    · cases b with
      | nil =>
        rw [List.cons_append, unescape, if_pos rfl]
        · rfl
        · simp
      | cons d b =>
        rw [List.cons_append, List.nil_append, unescape, if_pos rfl]
        exact if_neg (by simp [hhex])
    · rw [List.cons_append, List.cons_append, List.nil_append, unescape, if_pos rfl]
      exact if_neg (by simp [hhex])
    · exact absurd rfl (hshort h l rest)
  | case5 d rest hd hplus ih =>
    rw [List.cons_append, unescape.eq_def, unescape.eq_def mode (d :: rest)]
    dsimp only
    rw [if_neg hd, if_pos hplus, if_neg hd, if_pos hplus, ih]
    cases unescape mode rest <;> simp [Function.comp_def]
  | case6 d rest hd hplus hbad =>
    rw [List.cons_append, unescape.eq_def, unescape.eq_def mode (d :: rest)]
    dsimp only
    rw [if_neg hd, if_neg hplus, if_pos hbad, if_neg hd, if_neg hplus, if_pos hbad]
    rfl
  | case7 d rest hd hplus hbad ih =>
    rw [List.cons_append, unescape.eq_def, unescape.eq_def mode (d :: rest)]
    dsimp only
    rw [if_neg hd, if_neg hplus, if_neg hbad, if_neg hd, if_neg hplus, if_neg hbad, ih]
    cases unescape mode rest <;> simp [Function.comp_def]

end AiAuth.Library.Url
