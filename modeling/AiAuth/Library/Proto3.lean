import AiAuth.Library.Grammar

/-!
# The syntax of `proto3`

A file is a text of tokens with white space and comments in between. Its grammar marks the fields
and the enum values, at the token that names them. Option values in braces are only balanced.
-/
namespace AiAuth.Library.Proto3

abbrev Text := List Char

/-! ## Tokens -/

inductive Kind
  | ident | int | float | str | symbol
  deriving DecidableEq, Repr

structure Token where
  kind : Kind
  text : Text
  deriving DecidableEq, Repr

/-- White space, a comment up to the end of its line, or a comment between stars. -/
inductive Gap
  | space | line | block
  deriving DecidableEq, Repr

structure Trivia where
  gap : Gap
  text : Text
  deriving DecidableEq, Repr

/-- A token and what stands in front of it. -/
structure Lexeme where
  trivia : List Trivia
  token : Token
  deriving DecidableEq, Repr

def quote : Char := Char.ofNat 34
def apostrophe : Char := Char.ofNat 39
def backslash : Char := Char.ofNat 92

def isSpace (c : Char) : Bool := c ∈ [' ', '\t', '\n', '\r', Char.ofNat 11, Char.ofNat 12]
def isLetter (c : Char) : Bool := c.isAlpha || c == '_'
def isWord (c : Char) : Bool := c.isAlphanum || c == '_'
def isHex (c : Char) : Bool := c.isDigit || c ∈ "abcdefABCDEF".toList
def isOctal (c : Char) : Bool := '0' ≤ c && c ≤ '7'
def isSymbol (c : Char) : Bool := c ∈ ";=,.:/+-<>()[]\x7b\x7d".toList

/-- What may stand in front of a word. -/
def isDelimiter (c : Char) : Bool := isSpace c || isSymbol c || c == quote || c == apostrophe

/-- The length of a text up to a closing star and slash. -/
def blockLength : Text → Option ℕ
  | [] => none
  | c :: rest =>
    if c = '*' ∧ rest.head? = some '/' then some 2 else (blockLength rest).map (· + 1)

/-- The length of the white space or the comment at the beginning. A comment that is not closed
is none. -/
def gapLength : Text → Option (Gap × ℕ)
  | [] => none
  | c :: rest =>
    if isSpace c then some (.space, 1)
    else if c = '/' ∧ rest.head? = some '/' then
      if '\n' ∈ rest then some (.line, (rest.takeWhile (· ≠ '\n')).length + 2) else none
    else if c = '/' ∧ rest.head? = some '*' then
      (blockLength rest.tail).map fun n => (.block, n + 2)
    else none

/-- Whether an escape goes on well after its backslash. -/
def escapeOk : Text → Bool
  | [] => false
  | c :: rest =>
    if c = 'x' ∨ c = 'X' then rest.head?.any isHex
    else if c = 'u' then (rest.take 4).length = 4 && (rest.take 4).all isHex
    else if c = 'U' then (rest.take 8).length = 8 && (rest.take 8).all isHex
    else isOctal c || c ∈ [quote, apostrophe, backslash] || c ∈ "abfnrtv?".toList

/-- The length of a string after its opening quote, with the closing one. -/
def strLength (q : Char) : Text → Option ℕ
  | [] => none
  | c :: rest =>
    if c = q then some 1
    else if c = '\n' ∨ c = Char.ofNat 0 then none
    else if c = backslash then
      match rest with
      | [] => none
      | d :: rest => if escapeOk (d :: rest) then (strLength q rest).map (· + 2) else none
    else (strLength q rest).map (· + 1)

def digits (s : Text) : ℕ := (s.takeWhile Char.isDigit).length

/-- The length of an exponent, zero where there is none. -/
def exponentLength : Text → Option ℕ
  | [] => some 0
  | c :: rest =>
    if c = 'e' ∨ c = 'E' then
      let sign := if rest.head? = some '+' ∨ rest.head? = some '-' then 1 else 0
      let n := digits (rest.drop sign)
      if n = 0 then none else some (1 + sign + n)
    else some 0

/-- A number that begins with a digit or with a point. -/
def numberLength (s : Text) : Option (Kind × ℕ) :=
  if s.head? = some '0' ∧ (s.drop 1).head?.any (fun c => c = 'x' || c = 'X') then
    let n := ((s.drop 2).takeWhile isHex).length
    if n = 0 then none else some (.int, n + 2)
  else
    let whole := digits s
    let fraction :=
      if (s.drop whole).head? = some '.' then 1 + digits (s.drop (whole + 1)) else 0
    (exponentLength (s.drop (whole + fraction))).bind fun exponent =>
      if 0 < fraction + exponent then some (.float, whole + fraction + exponent)
      else if s.head? = some '0' && !(s.take whole).all isOctal then none
      else some (.int, whole)

/-- The length of the token at the beginning. -/
def tokenLength : Text → Option (Kind × ℕ)
  | [] => none
  | c :: rest =>
    if isLetter c then some (.ident, (rest.takeWhile isWord).length + 1)
    else if c.isDigit || (c = '.' && rest.head?.any Char.isDigit) then numberLength (c :: rest)
    else if c = quote ∨ c = apostrophe then (strLength c rest).map fun n => (.str, n + 1)
    else if isSymbol c then some (.symbol, 1)
    else none

/-- White space and comments at the beginning, and what comes after. -/
def skip : ℕ → Text → List Trivia × Text
  | 0, s => ([], s)
  | fuel + 1, s =>
    match gapLength s with
    | none => ([], s)
    | some (gap, n) => (⟨gap, s.take n⟩ :: (skip fuel (s.drop n)).1, (skip fuel (s.drop n)).2)

/-- A text without tokens: a last comment may lack the end of its line. -/
def isEnd (s : Text) : Bool := s = [] || ['/', '/'].isPrefixOf s

def triviaText (ts : List Trivia) : Text := ts.flatMap (·.text)

def Lexeme.text (l : Lexeme) : Text := triviaText l.trivia ++ l.token.text

/-- The tokens of a text, after a last character. Words and numbers stand apart from each other. -/
def lexFrom : ℕ → Option Char → Text → Option (List Lexeme)
  | 0, _, _ => none
  | fuel + 1, last, s =>
    let (trivia, rest) := skip s.length s
    if isEnd rest then some []
    else
      (tokenLength rest).bind fun (kind, n) =>
        let token : Token := ⟨kind, rest.take n⟩
        let last' := (triviaText trivia).getLast?.or last
        if kind ∈ [Kind.ident, .int, .float] && !last'.all isDelimiter then none
        else (lexFrom fuel (token.text.getLast?.or last') (rest.drop n)).map (⟨trivia, token⟩ :: ·)

def lex (s : Text) : Option (List Lexeme) := lexFrom (s.length + 1) none s

/-! ## What a text is made of -/

/-- How white space and comments are written. -/
inductive Trivia.WellFormed : Trivia → Prop
  | space {c} : isSpace c = true → WellFormed ⟨.space, [c]⟩
  | line {body} : '\n' ∉ body → WellFormed ⟨.line, '/' :: '/' :: body ++ ['\n']⟩
  | block {text} : WellFormed ⟨.block, text⟩

lemma gapLength_wellFormed {s : Text} {gap : Gap} {n : ℕ} (h : gapLength s = some (gap, n)) :
    Trivia.WellFormed ⟨gap, s.take n⟩ := by
  cases s with
  | nil => cases h
  | cons c rest =>
    rw [gapLength] at h
    split_ifs at h with hspace hline hend
    · obtain ⟨rfl, rfl⟩ := Prod.mk.inj (Option.some.inj h)
      exact .space hspace
    · obtain ⟨rfl, rfl⟩ := Prod.mk.inj (Option.some.inj h)
      obtain ⟨rfl, hhead⟩ := hline
      obtain ⟨front, after, rfl, hfront⟩ := List.eq_append_cons_of_mem hend
      have hspan : (front ++ '\n' :: after).takeWhile (· ≠ '\n') = front := by
        have hbefore : ∀ d ∈ front, decide (d ≠ '\n') = true := by
          intro d hd
          rw [decide_eq_true_eq]
          rintro rfl
          exact hfront hd
        rw [List.takeWhile_append_of_pos hbefore]
        simp
      cases front with
      | nil => cases hhead
      | cons d body =>
        obtain rfl : d = '/' := by simpa using hhead
        have htake : ('/' :: ('/' :: body ++ '\n' :: after)).take (('/' :: body).length + 2) =
            '/' :: '/' :: body ++ ['\n'] := by
          have happend : '/' :: ('/' :: body ++ '\n' :: after) =
              ('/' :: '/' :: body ++ ['\n']) ++ after := by simp
          rw [happend]
          exact List.take_left' (by simp)
        rw [hspan, htake]
        exact .line fun hmem => hfront (List.mem_cons_of_mem _ hmem)
    · obtain ⟨n', -, heq⟩ := Option.map_eq_some_iff.mp h
      obtain ⟨rfl, -⟩ := Prod.mk.inj heq
      exact .block

lemma skip_spec (fuel : ℕ) (s : Text) : s = triviaText (skip fuel s).1 ++ (skip fuel s).2 ∧
    ∀ t ∈ (skip fuel s).1, t.WellFormed := by
  induction fuel generalizing s with
  | zero => simp [skip, triviaText]
  | succ fuel ih =>
    rw [skip]
    cases hgap : gapLength s with
    | none => simp [triviaText]
    | some found =>
      obtain ⟨gap, n⟩ := found
      obtain ⟨htext, hall⟩ := ih (s.drop n)
      refine ⟨?_, List.forall_mem_cons.mpr ⟨gapLength_wellFormed hgap, hall⟩⟩
      dsimp only
      rw [triviaText, List.flatMap_cons, List.append_assoc]
      exact (List.take_append_drop n s).symm.trans (congrArg (s.take n ++ ·) htext)

lemma numberLength_ne_ident {s : Text} {kind : Kind} {n : ℕ}
    (h : numberLength s = some (kind, n)) : kind ≠ .ident := by
  rintro rfl
  unfold numberLength at h
  split at h
  · dsimp only at h
    split_ifs at h
    simp at h
  · obtain ⟨e, -, h⟩ := Option.bind_eq_some_iff.mp h
    split_ifs at h <;> simp at h

/-- A name is a word. -/
lemma tokenLength_ident {s : Text} {n : ℕ} (h : tokenLength s = some (.ident, n)) :
    s.take n ≠ [] ∧ ∀ c ∈ s.take n, isWord c = true := by
  cases s with
  | nil => cases h
  | cons c rest =>
    rw [tokenLength] at h
    split_ifs at h with hletter
    · obtain ⟨-, rfl⟩ := Prod.mk.inj (Option.some.inj h)
      have htake : (c :: rest).take ((rest.takeWhile isWord).length + 1) =
          c :: rest.takeWhile isWord := by
        have hprefix := List.takeWhile_prefix isWord (l := rest)
        rw [List.take_succ_cons, ← List.prefix_iff_eq_take.mp hprefix]
      rw [htake]
      refine ⟨List.cons_ne_nil _ _, List.forall_mem_cons.mpr ⟨?_, ?_⟩⟩
      · simp only [isLetter, Bool.or_eq_true] at hletter
        simp only [isWord, Char.isAlphanum, Bool.or_eq_true]
        exact hletter.imp_left .inl
      · exact fun d hd => List.all_eq_true.mp List.all_takeWhile d hd
    · exact absurd rfl (numberLength_ne_ident h)
    · simp at h
    · simp at h

/-- A token as it was read: what stands in front of it, and what a name is made of. -/
structure Lexeme.WellFormed (l : Lexeme) : Prop where
  trivia : ∀ t ∈ l.trivia, t.WellFormed
  ident : l.token.kind = .ident → l.token.text ≠ [] ∧ ∀ c ∈ l.token.text, isWord c = true

lemma lexFrom_spec {fuel : ℕ} {last : Option Char} {s : Text} {tokens : List Lexeme}
    (h : lexFrom fuel last s = some tokens) :
    (∃ rest, s = tokens.flatMap Lexeme.text ++ rest) ∧ (∀ l ∈ tokens, l.WellFormed) ∧
      ∀ before l after, tokens = before ++ l :: after → l.token.kind = .ident →
        ∀ c, (before.flatMap Lexeme.text ++ triviaText l.trivia).getLast?.or last = some c →
          isDelimiter c = true := by
  induction fuel generalizing last s tokens with
  | zero => cases h
  | succ fuel ih =>
    obtain ⟨htrivia, hformed⟩ := skip_spec s.length s
    rw [lexFrom] at h
    generalize skip s.length s = found at h htrivia hformed
    obtain ⟨trivia, rest⟩ := found
    dsimp only at h htrivia hformed
    split_ifs at h with hend
    · obtain rfl := Option.some.inj h
      exact ⟨⟨s, rfl⟩, by simp, by simp⟩
    obtain ⟨⟨kind, n⟩, hlen, h⟩ := Option.bind_eq_some_iff.mp h
    dsimp only at h
    split_ifs at h with hglued
    obtain ⟨tokens, hrest, rfl⟩ := Option.map_eq_some_iff.mp h
    obtain ⟨⟨tail, htext⟩, hwell, hdelim⟩ := ih hrest
    refine ⟨⟨tail, ?_⟩, List.forall_mem_cons.mpr ⟨⟨hformed, ?_⟩, hwell⟩, ?_⟩
    · rw [htrivia, List.flatMap_cons, Lexeme.text, List.append_assoc, List.append_assoc, ← htext,
        List.take_append_drop]
    · rintro rfl
      exact tokenLength_ident hlen
    · intro before l after heq hkind c hc
      cases before with
      | nil =>
        obtain ⟨rfl, -⟩ := List.cons.inj heq
        obtain rfl : kind = .ident := hkind
        have hall : ((triviaText trivia).getLast?.or last).all isDelimiter = true := by
          simpa using hglued
        rw [List.flatMap_nil, List.nil_append] at hc
        rwa [hc] at hall
      | cons first before =>
        obtain ⟨rfl, rfl⟩ := List.cons.inj heq
        refine hdelim before l after rfl hkind c ?_
        rw [← hc, List.flatMap_cons, Lexeme.text, List.append_assoc, List.append_assoc]
        simp only [List.getLast?_append, Option.or_assoc]

/-! ## The grammar -/

abbrev Rule := Grammar Lexeme

open Grammar

def kind (k : Kind) : Rule := one fun l => l.token.kind = k
def keyword (s : String) : Rule := one fun l => l.token = ⟨.ident, s.toList⟩
def sym (c : Char) : Rule := one fun l => l.token = ⟨.symbol, [c]⟩

def ident : Rule := kind .ident
def fullIdent : Rule := sepBy ident (sym '.')
def typeName : Rule := (opt (sym '.')).seq fullIdent

/-- Braces around anything in which braces are balanced. -/
def block : ℕ → Rule
  | 0 => fail
  | depth + 1 =>
    seqs [sym '\x7b',
      many (alt (one fun l => l.token.kind ≠ .symbol || l.token.text ∉ [['\x7b'], ['\x7d']])
        (block depth)),
      sym '\x7d']

def constant (depth : ℕ) : Rule :=
  oneOf [block depth, seqs [kind .str, many (kind .str)],
    seqs [opt (alt (sym '-') (sym '+')),
      oneOf [kind .int, kind .float, keyword "inf", keyword "nan"]],
    fullIdent]

def optionName : Rule :=
  sepBy (alt ident (seqs [sym '(', typeName, sym ')'])) (sym '.')

def setting (depth : ℕ) : Rule := seqs [optionName, sym '=', constant depth]

def option (depth : ℕ) : Rule := seqs [keyword "option", setting depth, sym ';']

def fieldOptions (depth : ℕ) : Rule :=
  opt (seqs [sym '[', sepBy (setting depth) (sym ','), sym ']'])

/-- A name, its number and its options. -/
def numbered (sign : Rule) (depth : ℕ) : Rule :=
  mark (seqs [ident, sym '=', sign, kind .int, fieldOptions depth, sym ';'])

def fieldBody (depth : ℕ) : Rule := typeName.seq (numbered empty depth)

def field (depth : ℕ) : Rule :=
  (opt (alt (keyword "repeated") (keyword "optional"))).seq (fieldBody depth)

def keyType : Rule :=
  oneOf (["int32", "int64", "uint32", "uint64", "sint32", "sint64", "fixed32", "fixed64",
    "sfixed32", "sfixed64", "bool", "string"].map keyword)

def mapField (depth : ℕ) : Rule :=
  seqs [keyword "map", sym '<', keyType, sym ',', typeName, sym '>', numbered empty depth]

/-- Statements between braces. -/
def body (statements : List Rule) : Rule := seqs [sym '\x7b', many (oneOf statements), sym '\x7d']

def oneof (depth : ℕ) : Rule :=
  seqs [keyword "oneof", ident, body [option depth, fieldBody depth, sym ';']]

def ranges (number : Rule) : Rule :=
  sepBy (number.seq (opt ((keyword "to").seq (alt number (keyword "max"))))) (sym ',')

def reserved (number : Rule) : Rule :=
  seqs [keyword "reserved", alt (ranges number) (sepBy (kind .str) (sym ',')), sym ';']

def negative : Rule := opt (sym '-')

def enumType (depth : ℕ) : Rule :=
  seqs [keyword "enum", ident, body [option depth, reserved (negative.seq (kind .int)),
    numbered negative depth, sym ';']]

def extension (depth : ℕ) : Rule :=
  seqs [keyword "extend", typeName, body [field depth, sym ';']]

def message : ℕ → Rule
  | 0 => fail
  | depth + 1 =>
    seqs [keyword "message", ident, body [message depth, enumType depth, oneof depth,
      extension depth, option depth, reserved (kind .int), mapField depth, field depth, sym ';']]

def rpcType : Rule :=
  seqs [sym '(', alt ((keyword "stream").seq typeName) typeName, sym ')']

def rpc (depth : ℕ) : Rule :=
  seqs [keyword "rpc", ident, rpcType, keyword "returns", rpcType,
    alt (body [option depth, sym ';']) (sym ';')]

def service (depth : ℕ) : Rule :=
  seqs [keyword "service", ident, body [option depth, rpc depth, sym ';']]

def importLine : Rule :=
  seqs [keyword "import", opt (alt (keyword "weak") (keyword "public")), kind .str, sym ';']

def package : Rule := seqs [keyword "package", fullIdent, sym ';']

/-- The line that names the version, in either kind of quotes. -/
def version : Rule :=
  seqs [keyword "syntax", sym '=',
    one fun l => l.token.kind = .str && (l.token.text.drop 1).dropLast = "proto3".toList, sym ';']

def file (depth : ℕ) : Rule :=
  version.seq (many (oneOf [importLine, package, option depth, message depth, enumType depth,
    extension depth, service depth, sym ';']))

/-- The places of the fields and enum values of a text that is a file. -/
def declarations (s : Text) : Option (List (List Lexeme)) :=
  (lex s).bind fun tokens =>
    match (file (tokens.length + 1)).run tokens with
    | some (marks, []) => some marks
    | _ => none

lemma declarations_suffix {s : Text} {places : List (List Lexeme)}
    (h : declarations s = some places) :
    ∃ tokens, lex s = some tokens ∧ ∀ place ∈ places, place <:+ tokens := by
  obtain ⟨tokens, hlex, h⟩ := Option.bind_eq_some_iff.mp h
  split at h
  next marks hrun =>
    obtain rfl := Option.some.inj h
    exact ⟨tokens, hlex, ((file (tokens.length + 1)).suffix hrun).2⟩
  · cases h

/-- The text in front of the token at a place. -/
def textBefore (tokens place : List Lexeme) : Text :=
  (tokens.take (tokens.length - place.length)).flatMap Lexeme.text ++
    (place.head?.map (triviaText ·.trivia)).getD []

/-- The name at a place. -/
def nameAt (place : List Lexeme) : Text := (place.head?.map (·.token.text)).getD []

/-- A syntactically valid file. -/
structure File where
  text : Text
  places : List (List Lexeme)
  valid : declarations text = some places

/-- The names of the fields and enum values. -/
def File.names (f : File) : List Text := f.places.map nameAt

end AiAuth.Library.Proto3
