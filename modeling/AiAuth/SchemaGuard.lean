import AiAuth.Library.Scan
import Mathlib.Data.Char
import Mathlib.Data.List.Dedup
import Mathlib.Data.List.Lex
import Mathlib.Data.List.Sort

/-!
# The schema guard

The script that reads the contract of the risk model. It takes comments off line by line, looks
for names that are assigned a number, and refuses those that grant authority.
-/
namespace AiAuth.RiskSchema
open Library

abbrev Text := List Char

/-- What the text functions of the language know about characters: the classes of regular
expressions, and lower case. Beyond ASCII little of it is used. -/
structure Unicode where
  word : Char → Bool
  digit : Char → Bool
  space : Char → Bool
  lower : Text → Text
  word_ascii : ∀ c, c.toNat < 128 → word c = (c.isAlphanum || c == '_')
  digit_ascii : ∀ c, c.toNat < 128 → digit c = c.isDigit
  space_ascii : ∀ c, c.toNat < 128 → space c = (c == ' ' || (9 ≤ c.toNat && c.toNat ≤ 13) ||
    (28 ≤ c.toNat && c.toNat ≤ 31))
  lower_ascii : ∀ s, (∀ c ∈ s, c.toNat < 128) → lower s = s.map Char.toLower
  digit_word : ∀ c, digit c = true → word c = true
  space_word : ∀ c, space c = true → word c = false

/-! ## Text -/

/-- Reading in text mode: every kind of line end becomes `\n`. -/
def readText : Text → Text
  | [] => []
  | c :: rest =>
    if c = '\r' then if rest.head? = some '\n' then readText rest else '\n' :: readText rest
    else c :: readText rest

/-- Dropping `//[^\n]*`; the flag says that a comment has begun. -/
def stripFrom : Bool → Text → Text
  | _, [] => []
  | true, c :: rest => if c = '\n' then c :: stripFrom false rest else stripFrom true rest
  | false, c :: rest =>
    if c = '/' ∧ rest.head? = some '/' then stripFrom true rest else c :: stripFrom false rest

def stripComments (s : Text) : Text := stripFrom false s

section assignments
variable (u : Unicode)

/-- `(\w+)\s*=\s*\d+\s*;` at the beginning: the name and the length. No class holds what comes
after it, so nothing is tried twice. -/
def matchAssignment (s : Text) : Option (Text × ℕ) :=
  match (s.dropWhile u.word).dropWhile u.space with
  | [] => none
  | equals :: value =>
    if equals ≠ '=' then none
    else
      let number := value.dropWhile u.space
      match (number.dropWhile u.digit).dropWhile u.space with
      | [] => none
      | semicolon :: rest =>
        if semicolon ≠ ';' ∨ s.takeWhile u.word = [] ∨ number.takeWhile u.digit = [] then none
        else some (s.takeWhile u.word, s.length - rest.length)

/-- The text that the expression describes, by its parts. -/
structure Assignment where
  name : Text
  space₁ : Text
  space₂ : Text
  number : Text
  space₃ : Text
  name_ne : name ≠ []
  name_word : ∀ c ∈ name, u.word c = true
  space₁_space : ∀ c ∈ space₁, u.space c = true
  space₂_space : ∀ c ∈ space₂, u.space c = true
  number_ne : number ≠ []
  number_digit : ∀ c ∈ number, u.digit c = true
  space₃_space : ∀ c ∈ space₃, u.space c = true

variable {u}

def Assignment.text (a : Assignment u) : Text :=
  a.name ++ a.space₁ ++ '=' :: (a.space₂ ++ a.number ++ a.space₃ ++ [';'])

lemma Unicode.not_word {c : Char} (hc : c.toNat < 128) (h : (c.isAlphanum || c == '_') = false) :
    u.word c = false := (u.word_ascii c hc).trans h

lemma Unicode.not_digit {c : Char} (h : u.word c = false) : u.digit c = false := by
  by_contra hdigit
  rw [u.digit_word c (by simpa using hdigit)] at h
  cases h

/-- The longest part of a class, if what comes after is outside. -/
lemma span_append {p : Char → Bool} {a : Text} (rest : Text) (ha : ∀ c ∈ a, p c = true)
    (hrest : ∀ c, rest.head? = some c → p c = false) :
    (a ++ rest).takeWhile p = a ∧ (a ++ rest).dropWhile p = rest := by
  rw [List.takeWhile_append_of_pos ha, List.dropWhile_append_of_pos ha]
  cases rest with
  | nil => simp
  | cons c rest =>
    have hc := hrest c rfl
    simp [hc]

/-- Where a part is followed by a mark, the next character is of the part or the mark. -/
lemma head_append {p : Char → Bool} {a rest : Text} {d : Char} (ha : ∀ c ∈ a, p c = false)
    (hd : p d = false) : ∀ c, (a ++ d :: rest).head? = some c → p c = false := by
  intro c hc
  cases a with
  | nil =>
    obtain rfl : d = c := by simpa using hc
    exact hd
  | cons e a =>
    obtain rfl : e = c := by simpa using hc
    exact ha e List.mem_cons_self

variable (u) in
lemma marks_apart : u.word '=' = false ∧ u.word ';' = false ∧ u.word '/' = false ∧
    u.word '\n' = false ∧ u.space '=' = false ∧ u.space ';' = false ∧ u.space '/' = false ∧
    u.space '\n' = true := by
  refine ⟨u.not_word ?_ ?_, u.not_word ?_ ?_, u.not_word ?_ ?_, u.not_word ?_ ?_, ?_⟩
  case refine_9 =>
    refine ⟨u.space_ascii _ ?_, u.space_ascii _ ?_, u.space_ascii _ ?_, u.space_ascii _ ?_⟩ <;>
      decide
  all_goals decide

lemma matchAssignment_text (a : Assignment u) (rest : Text) :
    matchAssignment u (a.text ++ rest) = some (a.name, a.text.length) := by
  obtain ⟨hequals, hsemicolon, -, -, hequals', hsemicolon', -, -⟩ := marks_apart u
  have hspace {c : Char} (hc : u.space c = true) : u.digit c = false :=
    Unicode.not_digit (u.space_word c hc)
  let tail₃ := a.space₃ ++ ';' :: rest
  let tail₂ := a.space₂ ++ (a.number ++ tail₃)
  have htext : a.text ++ rest = a.name ++ (a.space₁ ++ '=' :: tail₂) := by
    simp [Assignment.text, tail₂, tail₃]
  obtain ⟨hname, hafter⟩ := span_append (a.space₁ ++ '=' :: tail₂) a.name_word
    (head_append (fun c hc => u.space_word c (a.space₁_space c hc)) hequals)
  have hspace₁ := (span_append ('=' :: tail₂) a.space₁_space
    (head_append (a := []) (by simp) hequals')).2
  have hspace₂ := (span_append (a.number ++ tail₃) a.space₂_space (by
    intro c hc
    rw [List.head?_append_of_ne_nil _ a.number_ne] at hc
    have hword := u.digit_word c (a.number_digit c (List.mem_of_head? hc))
    by_contra hno
    rw [u.space_word c (by simpa using hno)] at hword
    cases hword)).2
  obtain ⟨hnumber, hafter₂⟩ := span_append tail₃ a.number_digit
    (head_append (fun c hc => hspace (a.space₃_space c hc)) (Unicode.not_digit hsemicolon))
  have hspace₃ := (span_append (';' :: rest) a.space₃_space
    (head_append (a := []) (by simp) hsemicolon')).2
  have hlen : (a.text ++ rest).length - rest.length = a.text.length := by
    rw [List.length_append, Nat.add_sub_cancel]
  rw [matchAssignment, htext, hafter, hname, hspace₁]
  dsimp only
  rw [if_neg (by simp), hspace₂, hnumber, hafter₂, hspace₃]
  dsimp only
  rw [if_neg (by simp [a.name_ne, a.number_ne]), ← htext, hlen]

lemma exists_assignment {s name : Text} {n : ℕ} (h : matchAssignment u s = some (name, n)) :
    ∃ (a : Assignment u) (rest : Text), s = a.text ++ rest ∧ a.name = name ∧ a.text.length = n := by
  have hall (p : Char → Bool) (t : Text) : ∀ c ∈ t.takeWhile p, p c = true :=
    fun c hc => List.all_eq_true.mp List.all_takeWhile c hc
  unfold matchAssignment at h
  cases hvalue : (s.dropWhile u.word).dropWhile u.space with
  | nil =>
    rw [hvalue] at h
    cases h
  | cons equals value =>
    rw [hvalue] at h
    dsimp only at h
    split_ifs at h with hequals
    cases hrest : ((value.dropWhile u.space).dropWhile u.digit).dropWhile u.space with
    | nil =>
      rw [hrest] at h
      cases h
    | cons semicolon rest =>
      rw [hrest] at h
      dsimp only at h
      split_ifs at h with hparts
      obtain ⟨hsemicolon, hname, hnumber⟩ : semicolon = ';' ∧ s.takeWhile u.word ≠ [] ∧
          (value.dropWhile u.space).takeWhile u.digit ≠ [] := by
        simpa [not_or] using hparts
      obtain ⟨rfl, rfl⟩ := Prod.mk.inj (Option.some.inj h)
      obtain rfl := not_not.mp hequals
      let a : Assignment u := {
        name := s.takeWhile u.word
        space₁ := (s.dropWhile u.word).takeWhile u.space
        space₂ := value.takeWhile u.space
        number := (value.dropWhile u.space).takeWhile u.digit
        space₃ := ((value.dropWhile u.space).dropWhile u.digit).takeWhile u.space
        name_ne := hname
        name_word := hall _ _
        space₁_space := hall _ _
        space₂_space := hall _ _
        number_ne := hnumber
        number_digit := hall _ _
        space₃_space := hall _ _ }
      have hspan (p : Char → Bool) (t : Text) : t.takeWhile p ++ t.dropWhile p = t :=
        List.takeWhile_append_dropWhile
      have htext : s = a.text ++ rest := by
        calc s = a.name ++ (a.space₁ ++ '=' :: value) := by rw [← hvalue, hspan, hspan]
          _ = a.name ++
              (a.space₁ ++ '=' :: (a.space₂ ++ (a.number ++ (a.space₃ ++ ';' :: rest)))) := by
            rw [← hsemicolon, ← hrest, hspan, hspan, hspan]
          _ = a.text ++ rest := by simp [Assignment.text]
      refine ⟨a, rest, htext, rfl, ?_⟩
      rw [htext, List.length_append, Nat.add_sub_cancel]

variable (u) in
/-- The expression the script looks for. -/
def assignment : Matcher Char Text where
  run := matchAssignment u
  len h := by
    obtain ⟨a, rest, rfl, -, rfl⟩ := exists_assignment h
    refine ⟨?_, by rw [List.length_append]; omega⟩
    rw [Assignment.text, List.length_append, List.length_cons]
    omega

namespace Assignment
variable {a b : Assignment u} {front rest rest' : Text}

/-- What stands in front of the equals sign. -/
def left (a : Assignment u) : Text := a.name ++ a.space₁

/-- What stands between the equals sign and the semicolon. -/
def right (a : Assignment u) : Text := a.space₂ ++ a.number ++ a.space₃

lemma text_eq (a : Assignment u) : a.text = a.left ++ '=' :: a.right ++ [';'] := by
  simp [text, left, right]

lemma getLast?_text (a : Assignment u) : a.text.getLast? = some ';' := by
  rw [text_eq, List.getLast?_append_of_ne_nil _ (by simp)]
  rfl

lemma text_append (a : Assignment u) (rest : Text) :
    a.text ++ rest = a.left ++ '=' :: (a.right ++ ';' :: rest) := by
  simp [text, left, right]

lemma outside {p : Char → Bool} {c : Char} {t : Text} (hc : p c = false)
    (ht : ∀ d ∈ t, p d = true) : c ∉ t := by
  intro hmem
  rw [ht c hmem] at hc
  cases hc

lemma marks_notMem (a : Assignment u) :
    ('=' ∉ a.left ∧ ';' ∉ a.left) ∧ '=' ∉ a.right := by
  obtain ⟨hequals, hsemicolon, -, -, hequals', hsemicolon', -, -⟩ := marks_apart u
  have hnumber : '=' ∉ a.number :=
    outside hequals fun d hd => u.digit_word d (a.number_digit d hd)
  simp only [left, right, List.mem_append, not_or]
  exact ⟨⟨⟨outside hequals a.name_word, outside hequals' a.space₁_space⟩,
    outside hsemicolon a.name_word, outside hsemicolon' a.space₁_space⟩,
    ⟨outside hequals' a.space₂_space, hnumber⟩, outside hequals' a.space₃_space⟩

/-- A name does not begin inside a name or after white space of another expression. -/
lemma left_apart (heq : front ++ a.left = b.left) (hne : front ≠ [])
    (hlast : ∀ c, front.getLast? = some c → u.word c = false) : False := by
  rw [left, left] at heq
  rcases List.append_eq_append_iff.mp heq with ⟨t, hname, -⟩ | ⟨t, -, hspace⟩
  · have hmem := List.getLast_mem hne
    have hword := b.name_word _ (hname ▸ List.mem_append_left t hmem)
    rw [hlast _ (List.getLast?_eq_some_getLast hne)] at hword
    cases hword
  · obtain ⟨c, hc⟩ := List.exists_mem_of_ne_nil _ a.name_ne
    have hc' : c ∈ b.space₁ := hspace ▸ List.mem_append_right t (List.mem_append_left _ hc)
    have hword := u.space_word c (b.space₁_space c hc')
    rw [a.name_word c hc] at hword
    cases hword

/-- An expression whose name begins after some other character is not reached by one that begins
earlier. -/
lemma apart (heq : front ++ (a.text ++ rest) = b.text ++ rest') (hne : front ≠ [])
    (hlast : ∀ c, front.getLast? = some c → u.word c = false) :
    b.text.length ≤ front.length := by
  obtain ⟨⟨-, hsemicolon⟩, -⟩ := a.marks_notMem
  obtain ⟨⟨hequals, -⟩, hequals'⟩ := b.marks_notMem
  rw [text_append, text_append, ← List.append_assoc] at heq
  rcases List.append_eq_append_iff.mp heq with ⟨t, hleft, hmark⟩ | ⟨t, hleft, hmark⟩
  · cases t with
    | nil => exact (left_apart (by simpa using hleft.symm) hne hlast).elim
    | cons c t =>
      obtain ⟨rfl, -⟩ := List.cons.inj hmark
      exact absurd (hleft ▸ by simp) hequals
  cases t with
  | nil => exact (left_apart (by simpa using hleft) hne hlast).elim
  | cons c t =>
    obtain ⟨rfl, hright⟩ := List.cons.inj hmark
    rcases List.append_eq_append_iff.mp hright with ⟨t', rfl, hmark'⟩ | ⟨t', hright', hmark'⟩
    · cases t' with
      | nil => cases hmark'
      | cons c t' =>
        obtain ⟨rfl, -⟩ := List.cons.inj hmark'
        have hwhole : front ++ a.left = b.text ++ t' := by
          rw [hleft, text_append]
        rcases List.append_eq_append_iff.mp hwhole with ⟨t'', hfront, hleft'⟩ | ⟨t'', rfl, -⟩
        · by_cases hnil : t'' = []
          · rw [hfront, hnil, List.append_nil]
          · have hlast' := b.getLast?_text
            rw [hfront, List.getLast?_append_of_ne_nil _ hnil] at hlast'
            exact absurd (hleft' ▸ List.mem_append_left t' (List.mem_of_getLast? hlast')) hsemicolon
        · rw [List.length_append]
          omega
    · cases t' with
      | nil => cases hmark'
      | cons c t' =>
        obtain ⟨rfl, -⟩ := List.cons.inj hmark'
        exact absurd (hright' ▸ by simp) hequals'

end Assignment

end assignments

/-! ## The script -/

def forbidden : List Text :=
  ["allow", "deny", "decision", "permit", "authorize", "authorise", "grant", "verdict"].map
    String.toList

section script
variable (u : Unicode)

/-- A name that grants authority. -/
def Authorising (name : Text) : Prop := ∃ tok ∈ forbidden, tok <:+: u.lower name

instance (name : Text) : Decidable (Authorising u name) :=
  inferInstanceAs (Decidable (∃ tok ∈ forbidden, _))

/-- How the guard ends. -/
inductive Report
  | gone
  | failed (bad : List Text)
  | ok (files identifiers : ℕ)
  deriving DecidableEq

def Report.code : Report → ℕ
  | gone | failed _ => 1
  | ok .. => 0

/-- What is printed; `dir` is the directory of the contract. -/
def Report.output (dir : String) : Report → List String
  | gone => ["GUARD FAIL: no .proto files under " ++ dir ++
      " — the contract the guard protects is gone."]
  | failed bad => ["GUARD FAIL: authorising field(s) in RiskAssessment: " ++
      ", ".intercalate ((bad.dedup.insertionSort (· ≤ ·)).map String.ofList),
      "The risk model is advisory. It must never authorise. See docs/threat-model.md T8."]
  | ok files identifiers => ["guard ok: " ++ toString files ++ " files, " ++ toString identifiers ++
      " identifiers checked, none grant authority"]

/-- The contents of the files as they are read, one after the other. -/
def asRead (protos : List Text) : Text := ['\n'].intercalate (protos.map readText)

def assignedNames (protos : List Text) : List Text :=
  (assignment u).findall (stripComments (asRead protos))

/-- The guard over the contents of the files it finds, in order. -/
def main (protos : List Text) : Report :=
  if protos = [] then .gone
  else
    let names := assignedNames u protos
    let bad := names.filter fun n => Authorising u n
    if bad ≠ [] then .failed bad else .ok protos.length names.dedup.length

variable {u}

lemma main_code {protos : List Text} : (main u protos).code = 1 ↔
    protos = [] ∨ ∃ name ∈ assignedNames u protos, Authorising u name := by
  by_cases hnone : protos = []
  · simp [main, hnone, Report.code]
  by_cases hbad : ((assignedNames u protos).filter fun n => Authorising u n) = []
  · rw [main, if_neg hnone, if_neg (not_not.mpr hbad)]
    simpa [hnone, Report.code, List.filter_eq_nil_iff] using hbad
  · rw [main, if_neg hnone, if_pos hbad]
    simpa [hnone, Report.code, List.filter_eq_nil_iff] using hbad

end script
end AiAuth.RiskSchema
