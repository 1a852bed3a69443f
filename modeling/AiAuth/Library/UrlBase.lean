import AiAuth.Library.Url
import Mathlib.Data.List.Infix

/-!
# URLs under a base

A base is a scheme and a host. What follows it in a text is read a second time by the
parser, and this says exactly which texts come back as the path they are.
-/
namespace AiAuth.Library.Url

/-! ## Percent-encoding -/

lemma unescape_path_cons {c : UInt8} (h : c ≠ ch '%') (s : Bytes) :
    unescape .path (c :: s) = (unescape .path s).map (c :: ·) := by
  rw [unescape.eq_def]
  simp only [if_neg h]
  simp

/-- An encoded byte reads back as the byte. -/
lemma unescape_pct (c : UInt8) (s : Bytes) :
    unescape .path (pct c ++ s) = (unescape .path s).map (c :: ·) := by
  have hall : ∀ i : Fin 256, ishex (upperhex (UInt8.ofNat i / 16)) = true ∧
      ishex (upperhex (UInt8.ofNat i % 16)) = true ∧
      unhex (upperhex (UInt8.ofNat i / 16)) * 16 + unhex (upperhex (UInt8.ofNat i % 16)) =
        UInt8.ofNat i := by decide +kernel
  have hc := hall ⟨c.toNat, c.toNat_lt⟩
  simp only [UInt8.ofNat_toNat] at hc
  simp [pct, unescape, hc, escapeAllowed]

theorem unescape_flatMap_pct (s : Bytes) : unescape .path (s.flatMap pct) = some s := by
  induction s with
  | nil => rfl
  | cons c s ih => rw [List.flatMap_cons, unescape_pct, ih, Option.map_some]

theorem unescape_of_notMem {s : Bytes} (h : ch '%' ∉ s) : unescape .path s = some s := by
  induction s with
  | nil => rfl
  | cons c s ih =>
    simp only [List.mem_cons, not_or] at h
    rw [unescape_path_cons (Ne.symm h.1), ih h.2, Option.map_some]

/-- Decoding never lengthens a text, and keeps the length only where nothing is encoded. -/
theorem unescape_length {s t : Bytes} (h : unescape .path s = some t) :
    t.length ≤ s.length ∧ (s.length ≤ t.length → ch '%' ∉ s) := by
  induction s using unescape.induct Encoding.path generalizing t with
  | case1 =>
    obtain rfl := Option.some.inj h
    simp
  | case2 a b rest hhex ih =>
    rw [unescape, if_pos rfl] at h
    obtain ⟨t', ht, rfl⟩ := Option.map_eq_some_iff.mp ((if_pos hhex).symm.trans h)
    have hle := (ih ht).1
    simp only [List.length_cons]
    exact ⟨by omega, fun hlong => by omega⟩
  | case3 a b rest hhex =>
    rw [unescape, if_pos rfl] at h
    cases (if_neg hhex).symm.trans h
  | case4 rest hshort =>
    rw [unescape, if_pos rfl] at h
    cases h
    exact hshort
  | case5 c rest hc hplus ih => simp at hplus
  | case6 c rest hc hplus hesc => simp at hesc
  | case7 c rest hc hplus hesc ih =>
    rw [unescape_path_cons hc] at h
    obtain ⟨t', ht, rfl⟩ := Option.map_eq_some_iff.mp h
    obtain ⟨hle, hmem⟩ := ih ht
    simp only [List.length_cons, List.mem_cons, not_or]
    exact ⟨by omega, fun hlong => ⟨Ne.symm hc, hmem (by omega)⟩⟩

/-- A decoded path that begins with a slash was written with one. -/
lemma unescape_head {s t : Bytes} (hs : s = [] ∨ s.head? = some (ch '/'))
    (h : unescape .path s = some t) : t = [] ∨ t.head? = some (ch '/') := by
  cases s with
  | nil =>
    obtain rfl := Option.some.inj h
    exact .inl rfl
  | cons c s =>
    obtain rfl : c = ch '/' := by simpa using hs
    rw [unescape_path_cons (by decide)] at h
    obtain ⟨t', -, rfl⟩ := Option.map_eq_some_iff.mp h
    exact .inr rfl

lemma setPath_path {u v : URL} {p : Bytes} (h : u.setPath p = some v) :
    unescape .path p = some v.path ∧ v.scheme = u.scheme ∧ v.host = u.host := by
  obtain ⟨path, hp, rfl⟩ := Option.map_eq_some_iff.mp h
  exact ⟨hp, rfl, rfl⟩

/-! ## Schemes -/

/-- A letter, then letters, digits and `+-.`. -/
def validScheme : Bytes → Bool
  | [] => false
  | c :: rest => isLetter c && rest.all fun c => isLetter c || isDigit c || c ∈ ascii "+-."

lemma getSchemeFrom_append {s : Bytes} (raw rest : Bytes) (i : ℕ) (hi : 0 < i)
    (hs : s.all (fun c => isLetter c || isDigit c || c ∈ ascii "+-.") = true) :
    getSchemeFrom raw i (s ++ ch ':' :: rest) = some (raw.take (i + s.length), rest) := by
  induction s generalizing i with
  | nil =>
    rw [List.nil_append, getSchemeFrom, if_neg (by decide), if_neg (by decide), if_pos rfl,
      if_neg hi.ne']
    rfl
  | cons c s ih =>
    simp only [List.all_cons, Bool.and_eq_true] at hs
    have hlen : i + (c :: s).length = i + 1 + s.length := by
      simp only [List.length_cons]
      omega
    rw [List.cons_append, getSchemeFrom, hlen]
    by_cases hl : isLetter c = true
    · rw [if_pos hl]
      exact ih (i + 1) i.succ_pos hs.2
    · have hc : (isDigit c || decide (c ∈ ascii "+-.")) = true := by simpa [hl] using hs.1
      rw [if_neg hl, if_pos hc, if_neg hi.ne']
      exact ih (i + 1) i.succ_pos hs.2

theorem getScheme_append {s : Bytes} (hs : validScheme s = true) (rest : Bytes) :
    getScheme (s ++ ch ':' :: rest) = some (s, rest) := by
  cases s with
  | nil => cases hs
  | cons c s =>
    simp only [validScheme, Bool.and_eq_true] at hs
    rw [getScheme, List.cons_append, getSchemeFrom, if_pos hs.1,
      getSchemeFrom_append _ _ _ Nat.one_pos hs.2]
    simp [Nat.add_comm 1]

/-! ## Taking the query off -/

/-- A path or nothing at all: what may follow a host. -/
def IsPath (p : Bytes) : Prop := p = [] ∨ p.head? = some (ch '/')

lemma IsPath.of_isPrefix {p q : Bytes} (hp : IsPath p) (h : q <+: p) : IsPath q := by
  obtain ⟨r, rfl⟩ := h
  cases q with
  | nil => exact .inl rfl
  | cons c q => exact .inr (by simpa [IsPath] using hp)

lemma not_isPath_star : ¬ IsPath (ascii "*") := by
  unfold IsPath
  decide

lemma splitQuery_isPrefix (p : Bytes) : (splitQuery p).1 <+: p := by
  unfold splitQuery
  split_ifs
  · exact List.dropLast_prefix p
  · exact cut_fst_isPrefix _ p

/-- Only a text without a question mark keeps its length. -/
lemma splitQuery_length {p : Bytes} (h : p.length ≤ (splitQuery p).1.length) : ch '?' ∉ p := by
  unfold splitQuery at h
  split_ifs at h with hlone
  · have hne : p ≠ [] := by
      rintro rfl
      simp at hlone
    have hpos := List.length_pos_iff.mpr hne
    simp only [List.length_dropLast] at h
    omega
  · exact cut_fst_length h

lemma splitQuery_of_notMem {p : Bytes} (h : ch '?' ∉ p) : splitQuery p = (p, [], false) := by
  have hlast : p.getLast? ≠ some (ch '?') := fun hl => h (List.mem_of_getLast? hl)
  rw [splitQuery, cut_of_notMem h]
  simp only [hlast, decide_false, Bool.false_and, Bool.false_eq_true, if_false]

/-- A part in front without a question mark stays in front. -/
lemma splitQuery_append {a : Bytes} (ha : ch '?' ∉ a) (p : Bytes) :
    splitQuery (a ++ p) = (a ++ (splitQuery p).1, (splitQuery p).2) := by
  cases p with
  | nil =>
    rw [List.append_nil, splitQuery_of_notMem ha, splitQuery_of_notMem (List.not_mem_nil)]
    simp
  | cons c p =>
    have hlast : (a ++ c :: p).getLast? = (c :: p).getLast? := by
      rw [List.getLast?_append, List.getLast?_cons]
      rfl
    have hcount : (a ++ c :: p).count (ch '?') = (c :: p).count (ch '?') := by
      rw [List.count_append, List.count_eq_zero_of_not_mem ha, Nat.zero_add]
    rw [splitQuery, splitQuery, hlast, hcount, cut_append_left ha]
    split_ifs
    · rw [List.dropLast_append_of_ne_nil (by simp)]
    · rfl

/-- After the scheme, the authority goes up to the path. -/
lemma parseHierarchy_authority {viaRequest : Bool} {u : URL} {authority p : Bytes}
    (hscheme : u.scheme ≠ []) (hslash : ch '/' ∉ authority) (hp : IsPath p) :
    parseHierarchy viaRequest u (ascii "//" ++ authority ++ p) =
      (parseAuthority authority).bind fun (user, host) =>
        { u with user := user, host := host }.setPath p := by
  have hmark : ascii "//" = [ch '/', ch '/'] := by decide
  have hbefore : ∀ c ∈ authority, (c != ch '/') = true := fun c hc => by
    rw [bne_iff_ne]
    exact fun heq => hslash (heq ▸ hc)
  have htake : (authority ++ p).takeWhile (· != ch '/') = authority ∧
      (authority ++ p).dropWhile (· != ch '/') = p := by
    rw [List.takeWhile_append_of_pos hbefore, List.dropWhile_append_of_pos hbefore]
    rcases hp with rfl | hp
    · simp
    · obtain ⟨c, p, rfl⟩ : ∃ c t, p = c :: t := by
        cases p with
        | nil => cases hp
        | cons c t => exact ⟨c, t, rfl⟩
      obtain rfl : c = ch '/' := by simpa using hp
      simp
  have hhead : (ascii "//" ++ authority ++ p).head? = some (ch '/') := by
    rw [hmark]
    rfl
  have hdrop : (ascii "//" ++ authority ++ p).drop 2 = authority ++ p := by
    rw [hmark]
    rfl
  have hpre : (ascii "//").isPrefixOf (ascii "//" ++ authority ++ p) = true := by
    rw [List.isPrefixOf_iff_prefix, List.append_assoc]
    exact List.prefix_append _ _
  rw [parseHierarchy, if_neg fun h => h.1 hhead, if_neg fun h => h.1 hhead,
    if_neg fun h => h.1 hhead, if_pos ⟨.inl hscheme, hpre⟩, hdrop]
  simp only [htake.1, htake.2]

/-! ## Bases -/

/-- A text `scheme://host`; `name` is the host as the parser reads it. -/
structure Base where
  scheme : Bytes
  host : Bytes
  name : Bytes
  scheme_valid : validScheme scheme = true
  host_plain : ∀ c ∈ host, c ≠ ch '/' ∧ c ≠ ch '?' ∧ c ≠ ch '#' ∧ isCTL c = false
  host_parses : parseAuthority host = some (none, name)

namespace Base

def text (b : Base) : Bytes := b.scheme ++ ascii "://" ++ b.host

/-- What parsing stores before the path: the base and the query. -/
def url (b : Base) (query : Bytes × Bool) : URL :=
  { URL.empty with
    scheme := toLower b.scheme
    host := b.name
    rawQuery := query.1
    forceQuery := query.2 }

variable {b : Base} {p : Bytes}

lemma text_append (b : Base) (p : Bytes) :
    b.text ++ p = b.scheme ++ ch ':' :: (ascii "//" ++ b.host ++ p) := by
  have hmark : ascii "://" = ch ':' :: ascii "//" := by decide
  simp [text, hmark, List.append_assoc]

lemma scheme_ne_nil (b : Base) : b.scheme ≠ [] := by
  intro h
  have := b.scheme_valid
  rw [h] at this
  cases this

lemma lower_ne_nil (b : Base) : toLower b.scheme ≠ [] := by
  simpa [toLower] using b.scheme_ne_nil

lemma scheme_plain (b : Base) : ∀ c ∈ b.scheme, c ≠ ch '#' ∧ isCTL c = false := by
  have hall : ∀ i : Fin 256, (isLetter (UInt8.ofNat i) || isDigit (UInt8.ofNat i) ||
      UInt8.ofNat i ∈ ascii "+-.") = true →
      UInt8.ofNat i ≠ ch '#' ∧ isCTL (UInt8.ofNat i) = false := by decide +kernel
  have hvalid := b.scheme_valid
  cases hs : b.scheme with
  | nil => simp
  | cons c rest =>
    simp only [hs, validScheme, Bool.and_eq_true, List.all_eq_true] at hvalid
    intro d hd
    have hd' : (isLetter d || isDigit d || decide (d ∈ ascii "+-.")) = true := by
      rcases List.mem_cons.mp hd with rfl | hd
      · simp [hvalid.1]
      · exact hvalid.2 d hd
    have := hall ⟨d.toNat, d.toNat_lt⟩
    simp only [UInt8.ofNat_toNat] at this
    exact this hd'

lemma hash_notMem_text (b : Base) : ch '#' ∉ b.text := by
  have hmark : ch '#' ∉ ascii "://" := by decide
  simp only [text, List.mem_append, not_or]
  exact ⟨⟨fun h => (b.scheme_plain _ h).1 rfl, hmark⟩, fun h => (b.host_plain _ h).2.2.1 rfl⟩

lemma any_isCTL_text (b : Base) : b.text.any isCTL = false := by
  have hmark : (ascii "://").any isCTL = false := by decide
  simp only [text, List.any_append, hmark, Bool.or_false, Bool.or_eq_false_iff]
  exact ⟨List.any_eq_false.mpr fun c hc => by simp [(b.scheme_plain c hc).2],
    List.any_eq_false.mpr fun c hc => by simp [(b.host_plain c hc).2.2.2]⟩

lemma text_append_ne_star (b : Base) (p : Bytes) : b.text ++ p ≠ ascii "*" := by
  intro h
  have hlen := congrArg List.length h
  have hstar : (ascii "*").length = 1 := by decide
  have hmark : (ascii "://").length = 3 := by decide
  simp only [text, List.length_append, hstar, hmark] at hlen
  omega

/-- After the scheme, the host goes up to the path. -/
lemma parseHierarchy_base (hp : IsPath p) (q : Bytes × Bool) :
    parseHierarchy false
      { URL.empty with scheme := toLower b.scheme, rawQuery := q.1, forceQuery := q.2 }
      (ascii "//" ++ b.host ++ p) = (b.url q).setPath p := by
  rw [parseHierarchy_authority b.lower_ne_nil (fun hmem => (b.host_plain _ hmem).1 rfl) hp,
    b.host_parses]
  rfl

/-- Parsing a path under a base: the fragment and the query come off the path. -/
theorem parseFrom_text (hp : IsPath p) (hctl : p.any isCTL = false) :
    parseFrom false (b.text ++ p) = (b.url (splitQuery p).2).setPath (splitQuery p).1 := by
  have hquery : ch '?' ∉ ascii "//" ++ b.host := by
    have hmark : ch '?' ∉ ascii "//" := by decide
    simp only [List.mem_append, not_or]
    exact ⟨hmark, fun h => (b.host_plain _ h).2.1 rfl⟩
  rw [parseFrom, if_neg (by simp [List.any_append, b.any_isCTL_text, hctl]), if_neg (by simp),
    if_neg (b.text_append_ne_star p), text_append, getScheme_append b.scheme_valid]
  simp only [Option.bind_some, splitQuery_append hquery]
  exact parseHierarchy_base (hp.of_isPrefix (splitQuery_isPrefix p)) _

/-- A plain path comes back as it is. -/
theorem parse_text_plain (hp : IsPath p)
    (hplain : ∀ c ∈ p, isCTL c = false ∧ c ≠ ch '%' ∧ c ≠ ch '?' ∧ c ≠ ch '#') :
    ∃ u, parse (b.text ++ p) = some u ∧ u.scheme = toLower b.scheme ∧ u.host = b.name ∧
      u.path = p := by
  have hhash : ch '#' ∉ b.text ++ p := by
    rw [List.mem_append, not_or]
    exact ⟨b.hash_notMem_text, fun h => (hplain _ h).2.2.2 rfl⟩
  have hquery := splitQuery_of_notMem fun h => (hplain _ h).2.2.1 rfl
  have hpath := unescape_of_notMem fun h => (hplain _ h).2.1 rfl
  have hctl : p.any isCTL = false := List.any_eq_false.mpr fun c hc => by simp [(hplain c hc).1]
  rw [parse, cut_of_notMem hhash]
  simp only [parseFrom_text hp hctl, hquery, URL.setPath, hpath, Option.map_some, Option.bind_some,
    if_true]
  exact ⟨_, rfl, rfl, rfl, rfl⟩

/-- An encoded path comes back decoded. -/
theorem parse_text_pct (b : Base) (p : Bytes) :
    ∃ u, parse (b.text ++ ch '/' :: p.flatMap pct) = some u ∧ u.scheme = toLower b.scheme ∧
      u.host = b.name ∧ u.path = ch '/' :: p := by
  have hall : ∀ d, ((pct d).all fun c => !isCTL c && c != ch '?' && c != ch '#') = true :=
    forall_byte (by decide +kernel)
  have hplain : ∀ c ∈ ch '/' :: p.flatMap pct, isCTL c = false ∧ c ≠ ch '?' ∧ c ≠ ch '#' := by
    intro c hc
    rcases List.mem_cons.mp hc with rfl | hc
    · decide
    · obtain ⟨d, -, hd⟩ := List.mem_flatMap.mp hc
      simpa [and_assoc] using List.all_eq_true.mp (hall d) c hd
  have hhash : ch '#' ∉ b.text ++ ch '/' :: p.flatMap pct := by
    rw [List.mem_append, not_or]
    exact ⟨b.hash_notMem_text, fun h => (hplain _ h).2.2 rfl⟩
  have hquery := splitQuery_of_notMem fun h => (hplain _ h).2.1 rfl
  have hctl : (ch '/' :: p.flatMap pct).any isCTL = false :=
    List.any_eq_false.mpr fun c hc => by simp [(hplain c hc).1]
  have hpath : unescape .path (ch '/' :: p.flatMap pct) = some (ch '/' :: p) := by
    rw [unescape_path_cons (by decide), unescape_flatMap_pct]
    rfl
  rw [parse, cut_of_notMem hhash]
  simp only [parseFrom_text (.inr rfl) hctl, hquery, URL.setPath, hpath, Option.map_some,
    Option.bind_some, if_true]
  exact ⟨_, rfl, rfl, rfl, rfl⟩

/-- Only a plain path comes back as it is: whatever the parser takes off or decodes makes the
path shorter. -/
theorem plain_of_parse_text (hp : IsPath p) {u : URL} (h : parse (b.text ++ p) = some u)
    (hu : u.path = p) : ∀ c ∈ p, isCTL c = false ∧ c ≠ ch '%' ∧ c ≠ ch '?' ∧ c ≠ ch '#' := by
  rw [parse, cut_append_left b.hash_notMem_text] at h
  obtain ⟨v, hv, hfrag⟩ := Option.bind_eq_some_iff.mp h
  have hpath : v.path = p := by
    split_ifs at hfrag
    · rw [← hu, Option.some.inj hfrag]
    · obtain ⟨f, -, rfl⟩ := Option.map_eq_some_iff.mp hfrag
      exact hu
  have hctl : (cut (ch '#') p).1.any isCTL = false := by
    by_contra hn
    rw [parseFrom, if_pos (by simpa [List.any_append, b.any_isCTL_text] using hn)] at hv
    cases hv
  rw [parseFrom_text (hp.of_isPrefix (cut_fst_isPrefix _ p)) hctl] at hv
  obtain ⟨hdec, hmem⟩ := unescape_length (setPath_path hv).1
  rw [hpath] at hdec hmem
  have hq := (splitQuery_isPrefix (cut (ch '#') p).1).length_le
  have hc := (cut_fst_isPrefix (ch '#') p).length_le
  have hcut : (cut (ch '#') p).1 = p := (cut_fst_isPrefix _ p).eq_of_length (by omega)
  have hhash : ch '#' ∉ p := cut_fst_length (by omega)
  rw [hcut] at hdec hmem hq hctl
  have hquery : ch '?' ∉ p := splitQuery_length (by omega)
  rw [splitQuery_of_notMem hquery] at hmem
  have hpct : ch '%' ∉ p := hmem le_rfl
  intro c hc
  refine ⟨by simpa using List.any_eq_false.mp hctl c hc, ?_, ?_, ?_⟩
  · rintro rfl
    exact hpct hc
  · rintro rfl
    exact hquery hc
  · rintro rfl
    exact hhash hc

end Base

/-! ## The shape of a parsed path -/

lemma isPath_dropWhile (s : Bytes) : IsPath (s.dropWhile (· != ch '/')) := by
  cases h : s.dropWhile (· != ch '/') with
  | nil => exact .inl rfl
  | cons c t =>
    have hne : s.dropWhile (· != ch '/') ≠ [] := h ▸ List.cons_ne_nil c t
    have hhead := List.head_dropWhile_not (· != ch '/') hne
    simp only [h, List.head_cons, bne_eq_false_iff_eq] at hhead
    exact .inr (by simp [hhead])

lemma parseHierarchy_path {viaRequest : Bool} {u v : URL} {rest : Bytes} (hu : u.path = [])
    (h : parseHierarchy viaRequest u rest = some v) :
    v.scheme = u.scheme ∧ (u.scheme ≠ [] ∨ viaRequest = true → IsPath v.path) := by
  unfold parseHierarchy at h
  split_ifs at h with hrooted hrequest hcolon hauthority
  · obtain rfl := Option.some.inj h
    exact ⟨rfl, fun _ => .inl hu⟩
  · obtain ⟨⟨user, host⟩, -, hset⟩ := Option.bind_eq_some_iff.mp h
    obtain ⟨hpath, hscheme, -⟩ := setPath_path hset
    exact ⟨hscheme, fun _ => unescape_head (isPath_dropWhile _) hpath⟩
  · obtain ⟨hpath, hscheme, -⟩ := setPath_path h
    refine ⟨hscheme, fun hs => unescape_head (.inr ?_) hpath⟩
    by_contra hne
    rcases hs with hs | hs
    · exact hrooted ⟨hne, hs⟩
    · exact hrequest ⟨hne, hs⟩

lemma parseFrom_path {viaRequest : Bool} {s : Bytes} {u : URL}
    (h : parseFrom viaRequest s = some u) (hs : u.scheme ≠ [] ∨ viaRequest = true) :
    (u.scheme = [] ∧ u.path = ascii "*") ∨ IsPath u.path := by
  unfold parseFrom at h
  split_ifs at h with hctl hempty hstar
  · obtain rfl := Option.some.inj h
    exact .inl ⟨rfl, rfl⟩
  · obtain ⟨⟨scheme, rest⟩, -, hrest⟩ := Option.bind_eq_some_iff.mp h
    obtain ⟨hscheme, hpath⟩ := parseHierarchy_path rfl hrest
    exact .inr (hpath (hscheme ▸ hs))

/-- With a scheme, a path is empty or begins with a slash. -/
theorem parse_path_of_scheme {s : Bytes} {u : URL} (h : parse s = some u) (hs : u.scheme ≠ []) :
    IsPath u.path := by
  obtain ⟨v, hv, hfrag⟩ := Option.bind_eq_some_iff.mp h
  have hsame : u.scheme = v.scheme ∧ u.path = v.path := by
    split_ifs at hfrag
    · rw [Option.some.inj hfrag]
      exact ⟨rfl, rfl⟩
    · obtain ⟨f, -, rfl⟩ := Option.map_eq_some_iff.mp hfrag
      exact ⟨rfl, rfl⟩
  rw [hsame.1] at hs
  rw [hsame.2]
  exact (parseFrom_path hv (.inl hs)).resolve_left fun hstar => hs hstar.1

/-- The path of a request target is a star, empty, or begins with a slash. -/
theorem parseRequestURI_path {s : Bytes} {u : URL} (h : parseRequestURI s = some u) :
    u.path = ascii "*" ∨ IsPath u.path :=
  (parseFrom_path h (.inr rfl)).imp_left And.right

end AiAuth.Library.Url
