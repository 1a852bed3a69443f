import AiAuth.Library.UrlHost

/-!
# Writing a URL and reading it back

A query reads back as its settings in the order of their keys, and a URL with an authority as
the same scheme, user, host, path and query.
-/
namespace AiAuth.Library.Url

def lowerByte (c : UInt8) : UInt8 := if isUpper c then c + 32 else c

lemma toLower_eq (s : Bytes) : toLower s = s.map lowerByte := rfl

/-- What user information is written with. -/
def userPlain (c : UInt8) : Bool :=
  (isLetter c || isDigit c || c ∈ ascii "-._:~!$&'()*+,;=%@") && isPlain c && c != ch '@' &&
    c != ch '/'

/-- Whatever is written without an escape somewhere is plain. -/
structure PlainClasses (c : UInt8) : Prop where
  user : (shouldEscape c .userPassword || userPlain c) = true
  pct : (pct c).all userPlain = true
  scheme : schemeChar c = true → isPlain c = true
  path : (c ∈ ascii "!$&'()*+,;=:@[]%" || !shouldEscape c .path) = true → isPlain c = true
  ctl : isPlain c = true → isCTL c = false
  lower : (isLetter c = true → isLetter (lowerByte c) = true) ∧
    (schemeChar c = true → schemeChar (lowerByte c) = true)
  lower_lower : lowerByte (lowerByte c) = lowerByte c

/-- Every byte is looked at, once for all. -/
theorem plainClasses (c : UInt8) : PlainClasses c := by
  have hall : ∀ c, decide (((shouldEscape c .userPassword || userPlain c) = true ∧
      (Url.pct c).all userPlain = true ∧ (schemeChar c = true → isPlain c = true)) ∧
      ((c ∈ ascii "!$&'()*+,;=:@[]%" || !shouldEscape c .path) = true → isPlain c = true) ∧
      (isPlain c = true → isCTL c = false) ∧
      ((isLetter c = true → isLetter (lowerByte c) = true) ∧
        (schemeChar c = true → schemeChar (lowerByte c) = true)) ∧
      lowerByte (lowerByte c) = lowerByte c) = true := forall_byte (by decide +kernel)
  obtain ⟨⟨huser, hpct, hscheme⟩, hpath, hctl, hlower, hlower'⟩ := of_decide_eq_true (hall c)
  exact ⟨huser, hpct, hscheme, hpath, hctl, hlower, hlower'⟩

/-! ## Authorities -/

/-- The user information in front of a host, as it is written. -/
def writtenUser (user : Option Userinfo) : Bytes :=
  (user.map fun ui => ui.string ++ [ch '@']).getD []

lemma userinfo_plain (ui : Userinfo) : validUserinfo ui.string = true ∧ ch '@' ∉ ui.string ∧
    ch '/' ∉ ui.string ∧ ∀ c ∈ ui.string, isPlain c = true := by
  have hall : ∀ c ∈ ui.string, (isLetter c || isDigit c ||
      decide (c ∈ ascii "-._:~!$&'()*+,;=%@")) = true ∧ isPlain c = true ∧ c ≠ ch '@' ∧
        c ≠ ch '/' := by
    have hescape : ∀ s, ∀ c ∈ escape .userPassword s, userPlain c = true := by
      intro s
      refine forall_mem_escape rfl (fun c => (plainClasses c).pct) fun c _ hc => ?_
      have hc' := (plainClasses c).user
      rwa [hc, Bool.false_or] at hc'
    have hcolon : userPlain (ch ':') = true := rfl
    intro c hc
    have hboth : userPlain c = true := by
      rw [Userinfo.string, List.mem_append] at hc
      rcases hc with hc | hc
      · exact hescape _ c hc
      · cases hpass : ui.password with
        | none =>
          rw [hpass] at hc
          cases hc
        | some pass =>
          rw [hpass] at hc
          rcases List.mem_cons.mp hc with rfl | hc
          · exact hcolon
          · exact hescape _ c hc
    simp only [userPlain, Bool.and_eq_true, bne_iff_ne] at hboth
    exact ⟨hboth.1.1.1, hboth.1.1.2, hboth.1.2, hboth.2⟩
  refine ⟨List.all_eq_true.mpr fun c hc => (hall c hc).1, fun h => (hall _ h).2.2.1 rfl,
    fun h => (hall _ h).2.2.2 rfl, fun c hc => (hall c hc).2.1⟩

/-- An authority reads back if its host does. -/
theorem parseAuthority_written {user : Option Userinfo} {host : Bytes}
    (hhost : parseHost (escape .host host) = some host) :
    parseAuthority (writtenUser user ++ escape .host host) = some (user, host) := by
  have hat : ch '@' ∉ escape .host host := notMem_escape rfl (by decide) host
  cases user with
  | none =>
    rw [writtenUser, Option.map_none, Option.getD_none, List.nil_append, parseAuthority,
      cutLast_of_notMem hat]
    dsimp only
    rw [hhost]
    rfl
  | some ui =>
    have hread (s : Bytes) : unescape .userPassword (escape .userPassword s) = some s :=
      unescape_escape fun c _ _ => mayEscape_of_ne (by simp) (by simp) c
    have hcolon (s : Bytes) : ch ':' ∉ escape .userPassword s := notMem_escape rfl (by decide) s
    have hcut : cutLast (ch '@') (writtenUser (some ui) ++ escape .host host) =
        some (ui.string, escape .host host) := by
      rw [writtenUser, Option.map_some, Option.getD_some, List.append_assoc]
      exact cutLast_append hat ui.string
    rw [parseAuthority, hcut]
    dsimp only
    rw [hhost, Option.bind_eq_bind, Option.bind_some, (userinfo_plain ui).1, if_neg (by simp)]
    obtain ⟨username, password⟩ := ui
    cases password with
    | none =>
      have hstring : (⟨username, none⟩ : Userinfo).string = escape .userPassword username :=
        List.append_nil _
      rw [hstring, if_neg (hcolon username), hread]
      rfl
    | some password =>
      have hstring : (⟨username, some password⟩ : Userinfo).string =
          escape .userPassword username ++ ch ':' :: escape .userPassword password := rfl
      rw [hstring, if_pos (by simp), cut_append (hcolon username), hread, hread]
      rfl

/-! ## Queries -/

/-- Settings in the order in which they are written. -/
def Values.sorted (v : Values) : Values := v.insertionSort fun a b => a.1 ≤ b.1

lemma splitOn_intercalate {sep : UInt8} {parts : List Bytes} (hne : parts ≠ [])
    (h : ∀ p ∈ parts, sep ∉ p) : splitOn sep ([sep].intercalate parts) = parts := by
  induction parts with
  | nil => exact absurd rfl hne
  | cons p parts ih =>
    obtain ⟨hp, hparts⟩ := List.forall_mem_cons.mp h
    cases parts with
    | nil => simpa [List.intercalate] using splitOn_of_notMem sep hp
    | cons q parts =>
      have hcons : [sep].intercalate (p :: q :: parts) =
          p ++ sep :: [sep].intercalate (q :: parts) := by
        simp [List.intercalate]
      rw [hcons, splitOn_append sep hp, ih (by simp) hparts]

/-- A setting as it is written. -/
def writtenSetting (kv : Bytes × Bytes) : Bytes :=
  escape .queryComponent kv.1 ++ ch '=' :: escape .queryComponent kv.2

lemma notMem_writtenSetting {sep : UInt8} (hsep : shouldEscape sep .queryComponent = true)
    (hmark : sep ∉ ascii "%+0123456789ABCDEF") (hne : sep ≠ ch '=') (kv : Bytes × Bytes) :
    sep ∉ writtenSetting kv := by
  rw [writtenSetting, List.mem_append, List.mem_cons]
  rintro (hkey | hequals | hvalue)
  · exact notMem_escape hsep hmark kv.1 hkey
  · exact hne hequals
  · exact notMem_escape hsep hmark kv.2 hvalue

lemma parseSetting_written (kv : Bytes × Bytes) : parseSetting (writtenSetting kv) = some kv := by
  have hread (s : Bytes) : unescape .queryComponent (escape .queryComponent s) = some s :=
    unescape_escape fun c _ _ => mayEscape_of_ne (by simp) (by simp) c
  have hsemicolon : ch ';' ∉ writtenSetting kv :=
    notMem_writtenSetting rfl (by decide) (by decide) kv
  have hne : writtenSetting kv ≠ [] := by simp [writtenSetting]
  have hcut : cut (ch '=') (writtenSetting kv) =
      (escape .queryComponent kv.1, escape .queryComponent kv.2) :=
    cut_append (notMem_escape rfl (by decide) kv.1) _
  rw [parseSetting, decide_eq_false hsemicolon, decide_eq_false hne, hcut, hread, hread]
  rfl

/-- A query reads back as its settings. -/
theorem parseQuery_encode (v : Values) : parseQuery v.encode = v.sorted := by
  have hencode : v.encode = [ch '&'].intercalate (v.sorted.map writtenSetting) := rfl
  rw [hencode, parseQuery]
  cases hsorted : v.sorted with
  | nil => rfl
  | cons kv rest =>
    rw [splitOn_intercalate (by simp), List.filterMap_map]
    · have hall : parseSetting ∘ writtenSetting = some := funext parseSetting_written
      rw [hall, List.filterMap_some]
    · intro p hp
      obtain ⟨kv', -, rfl⟩ := List.mem_map.mp hp
      exact notMem_writtenSetting rfl (by decide) (by decide) kv'

lemma mem_intercalate {sep c : UInt8} {parts : List Bytes} (h : c ∈ [sep].intercalate parts) :
    c = sep ∨ ∃ p ∈ parts, c ∈ p := by
  induction parts with
  | nil => cases h
  | cons p parts ih =>
    cases parts with
    | nil => exact .inr ⟨p, List.mem_cons_self, by simpa [List.intercalate] using h⟩
    | cons q parts =>
      have hcons : [sep].intercalate (p :: q :: parts) =
          p ++ sep :: [sep].intercalate (q :: parts) := by
        simp [List.intercalate]
      rw [hcons, List.mem_append, List.mem_cons] at h
      rcases h with hp | hsep | hrest
      · exact .inr ⟨p, List.mem_cons_self, hp⟩
      · exact .inl hsep
      · rcases ih hrest with hsep | ⟨r, hr, hc⟩
        · exact .inl hsep
        · exact .inr ⟨r, List.mem_cons_of_mem p hr, hc⟩

lemma encode_plain (v : Values) : ∀ c ∈ v.encode, isPlain c = true := by
  intro c hc
  rcases mem_intercalate hc with rfl | ⟨p, hp, hc⟩
  · rfl
  · obtain ⟨kv, -, rfl⟩ := List.mem_map.mp hp
    rcases List.mem_append.mp hc with hkey | hrest
    · exact escape_isPlain (by simp) kv.1 c hkey
    · rcases List.mem_cons.mp hrest with rfl | hvalue
      · rfl
      · exact escape_isPlain (by simp) kv.2 c hvalue

lemma encode_ne_nil {v : Values} (hv : v ≠ []) : v.encode ≠ [] := by
  intro h
  have hread := parseQuery_encode v
  rw [h] at hread
  have hlen := congrArg List.length hread
  rw [Values.sorted, List.length_insertionSort] at hlen
  exact hv (List.length_eq_zero_iff.mp hlen.symm)

/-! ## URLs -/

lemma validScheme_plain {s : Bytes} (hs : validScheme s = true) : ∀ c ∈ s, isPlain c = true := by
  cases s with
  | nil => simp
  | cons c rest =>
    simp only [validScheme, Bool.and_eq_true, List.all_eq_true] at hs
    exact List.forall_mem_cons.mpr ⟨(plainClasses c).scheme (by simp [schemeChar, hs.1]),
      fun d hd => (plainClasses d).scheme (hs.2 d hd)⟩

lemma validEncoded_plain {s : Bytes} (hs : validEncoded s .path = true) :
    ∀ c ∈ s, isPlain c = true := by
  exact fun c hc => (plainClasses c).path (List.all_eq_true.mp hs c hc)

/-- However a path is written, it is plain, rooted if it was, and reads back. -/
lemma escapedPath_spec {u : URL} (hpath : IsPath u.path) (hraw : IsPath u.rawPath) :
    (∀ c ∈ u.escapedPath, isPlain c = true) ∧ IsPath u.escapedPath ∧
      unescape .path u.escapedPath = some u.path := by
  unfold URL.escapedPath
  split_ifs with hkept hstar
  · exact ⟨validEncoded_plain hkept.2.1, hraw, hkept.2.2⟩
  · exact absurd (hstar ▸ hpath) not_isPath_star
  · refine ⟨escape_isPlain (by simp) u.path, ?_,
      unescape_escape fun c _ _ => mayEscape_of_ne (by simp) (by simp) c⟩
    rcases hpath with hnil | hrooted
    · rw [hnil]
      exact .inl rfl
    · cases hp : u.path with
      | nil => exact .inl rfl
      | cons c rest =>
        rw [hp] at hrooted
        rw [Option.some.inj hrooted]
        exact .inr rfl

/-- A URL of a scheme, an authority and a path, without a fragment, as the parser stores it. -/
structure Hierarchical (u : URL) : Prop where
  scheme : validScheme u.scheme = true
  lower : toLower u.scheme = u.scheme
  opaquePart : u.opaquePart = []
  path : IsPath u.path
  rawPath : IsPath u.rawPath
  omitHost : u.omitHost = false
  forceQuery : u.forceQuery = false
  fragment : u.fragment = []

lemma Hierarchical.scheme_ne_nil {u : URL} (h : Hierarchical u) : u.scheme ≠ [] := by
  intro hnil
  have hvalid := h.scheme
  rw [hnil] at hvalid
  cases hvalid

/-- What stands between the scheme and the query. -/
lemma Hierarchical.written {u : URL} (h : Hierarchical u) : u.writtenHierarchy =
    (if u.host ≠ [] ∨ u.path ≠ [] ∨ u.user ≠ none then ascii "//" else []) ++
      (writtenUser u.user ++ escape .host u.host) ++ u.escapedPath := by
  have hscheme := h.scheme_ne_nil
  obtain ⟨-, hrooted, -⟩ := escapedPath_spec h.path h.rawPath
  have hslash : ¬ (u.escapedPath ≠ [] ∧ u.escapedPath.head? ≠ some (ch '/') ∧ u.host ≠ []) := by
    rintro ⟨hne, hhead, -⟩
    exact hrooted.elim hne hhead
  have hauth : u.writtenAuthority =
      (if u.host ≠ [] ∨ u.path ≠ [] ∨ u.user ≠ none then ascii "//" else []) ++
        (writtenUser u.user ++ escape .host u.host) := by
    rw [URL.writtenAuthority, if_pos ⟨.inl hscheme, by simp [h.omitHost]⟩, List.append_assoc]
    rfl
  rw [URL.writtenHierarchy, if_neg hslash, if_neg (fun hdot => hscheme hdot.1), hauth]
  simp

lemma writtenUser_spec (user : Option Userinfo) :
    (∀ c ∈ writtenUser user, isPlain c = true) ∧ ch '/' ∉ writtenUser user := by
  cases user with
  | none => simp [writtenUser]
  | some ui =>
    obtain ⟨-, -, hslash, hplain⟩ := userinfo_plain ui
    have hwritten : writtenUser (some ui) = ui.string ++ [ch '@'] := rfl
    rw [hwritten]
    refine ⟨List.forall_mem_append.mpr ⟨hplain, fun c hc => ?_⟩, ?_⟩
    · rw [List.mem_singleton.mp hc]
      rfl
    · rw [List.mem_append, List.mem_singleton]
      exact not_or.mpr ⟨hslash, by decide⟩

lemma Hierarchical.written_plain {u : URL} (h : Hierarchical u) :
    ∀ c ∈ u.writtenHierarchy, isPlain c = true := by
  rw [h.written]
  refine List.forall_mem_append.mpr ⟨List.forall_mem_append.mpr ⟨?_, List.forall_mem_append.mpr
    ⟨(writtenUser_spec u.user).1, escape_isPlain (by simp) u.host⟩⟩,
    (escapedPath_spec h.path h.rawPath).1⟩
  split_ifs
  · have hmark : ascii "//" = [ch '/', ch '/'] := by decide
    rw [hmark]
    exact List.forall_mem_cons.mpr ⟨rfl, List.forall_mem_cons.mpr ⟨rfl, by simp⟩⟩
  · simp

lemma toLower_scheme {s : Bytes} (hs : validScheme s = true) :
    validScheme (toLower s) = true ∧ toLower (toLower s) = toLower s := by
  refine ⟨?_, ?_⟩
  · cases s with
    | nil => cases hs
    | cons c rest =>
      simp only [validScheme, Bool.and_eq_true, List.all_eq_true] at hs
      simp only [toLower_eq, List.map_cons, validScheme, Bool.and_eq_true, List.all_eq_true,
        List.forall_mem_map]
      exact ⟨(plainClasses c).lower.1 hs.1, fun d hd => (plainClasses d).lower.2 (hs.2 d hd)⟩
  · rw [toLower_eq, toLower_eq, List.map_map]
    exact List.map_congr_left fun c _ => (plainClasses c).lower_lower

/-- What is stored of a URL before its hierarchical part. -/
def URL.bare (scheme query : Bytes) : URL :=
  { URL.empty with scheme := scheme, rawQuery := query }

/-- A plain text with a scheme is parsed by its scheme, the part up to the query, and the query. -/
lemma parse_plain {s hier query : Bytes} (hs : validScheme s = true) (hlower : toLower s = s)
    (hhier : ∀ c ∈ hier, isPlain c = true) (hquery : ∀ c ∈ query, isPlain c = true)
    (hne : query ≠ []) : parse (s ++ ch ':' :: (hier ++ ch '?' :: query)) =
      parseHierarchy false (.bare s query) hier := by
  have hplain : ∀ c ∈ s ++ ch ':' :: (hier ++ ch '?' :: query), isPlain c = true ∨ c = ch '?' := by
    intro c hc
    rw [List.mem_append, List.mem_cons, List.mem_append, List.mem_cons] at hc
    rcases hc with hc | rfl | hc | hc | hc
    · exact .inl (validScheme_plain hs c hc)
    · exact .inl rfl
    · exact .inl (hhier c hc)
    · exact .inr hc
    · exact .inl (hquery c hc)
  have hnotMem {t : Bytes} {c : UInt8} (ht : ∀ c ∈ t, isPlain c = true) (hc : isPlain c = false) :
      c ∉ t := fun hmem => by
    rw [ht c hmem] at hc
    cases hc
  have hhash : ch '#' ∉ s ++ ch ':' :: (hier ++ ch '?' :: query) := fun hmem => by
    rcases hplain _ hmem with hc | hc
    · cases hc
    · exact absurd hc (by decide)
  have hctl : (s ++ ch ':' :: (hier ++ ch '?' :: query)).any isCTL = false := by
    refine List.any_eq_false.mpr fun c hc => ?_
    rcases hplain c hc with hc | rfl
    · simp [(plainClasses c).ctl hc]
    · decide
  have hstar : s ++ ch ':' :: (hier ++ ch '?' :: query) ≠ ascii "*" := by
    intro heq
    have hmem : ch ':' ∈ ascii "*" := heq ▸ by simp
    exact absurd hmem (by decide)
  have hlast : (hier ++ ch '?' :: query).getLast? ≠ some (ch '?') := by
    rw [List.getLast?_append_of_ne_nil _ (by simp), List.getLast?_cons_of_ne_nil hne]
    exact fun heq => hnotMem hquery rfl (List.mem_of_getLast? heq)
  have hsplit : splitQuery (hier ++ ch '?' :: query) = (hier, query, false) := by
    rw [splitQuery, decide_eq_false hlast, Bool.false_and, cut_append (hnotMem hhier rfl)]
    rfl
  rw [parse, cut_of_notMem hhash]
  dsimp only
  rw [parseFrom, hctl, if_neg (by simp), if_neg (by simp), if_neg hstar, getScheme_append hs]
  simp only [Option.bind_some, hsplit, hlower, if_true]
  exact Option.bind_fun_some _

lemma Hierarchical.string_eq {u : URL} (h : Hierarchical u) (hne : u.rawQuery ≠ []) :
    u.string = u.scheme ++ ch ':' :: (u.writtenHierarchy ++ ch '?' :: u.rawQuery) := by
  rw [URL.string, if_pos h.scheme_ne_nil, if_neg (not_not.mpr h.opaquePart), if_pos (.inr hne),
    if_neg (not_not.mpr h.fragment)]
  simp

/-- A URL that is written with a query reads back, if its host does. -/
theorem Hierarchical.parse_string {u : URL} (h : Hierarchical u) (hne : u.rawQuery ≠ [])
    (hquery : ∀ c ∈ u.rawQuery, isPlain c = true)
    (hhost : parseHost (escape .host u.host) = some u.host) :
    ∃ v, parse u.string = some v ∧ v.scheme = u.scheme ∧ v.user = u.user ∧ v.host = u.host ∧
      v.path = u.path ∧ v.rawQuery = u.rawQuery := by
  have hscheme := h.scheme_ne_nil
  obtain ⟨-, hrooted, hread⟩ := escapedPath_spec h.path h.rawPath
  rw [h.string_eq hne, parse_plain h.scheme h.lower h.written_plain hquery hne, h.written]
  by_cases hauth : u.host ≠ [] ∨ u.path ≠ [] ∨ u.user ≠ none
  · have hslash : ch '/' ∉ writtenUser u.user ++ escape .host u.host := by
      rw [List.mem_append]
      exact not_or.mpr ⟨(writtenUser_spec u.user).2, notMem_escape rfl (by decide) u.host⟩
    rw [if_pos hauth, parseHierarchy_authority (u := .bare u.scheme u.rawQuery) hscheme hslash
      hrooted, parseAuthority_written hhost]
    simp only [Option.bind_some, URL.setPath, hread, Option.map_some]
    exact ⟨_, rfl, rfl, rfl, rfl, rfl, rfl⟩
  · simp only [not_or, not_not] at hauth
    obtain ⟨hhost', hpath, huser⟩ := hauth
    have hnil : u.escapedPath = [] := unescape_eq_nil (by rw [hread, hpath])
    rw [if_neg (by simp [hhost', hpath, huser]), hhost', huser, hnil, hpath, parseHierarchy,
      if_pos ⟨by simp [writtenUser, escape], hscheme⟩]
    exact ⟨_, rfl, rfl, rfl, rfl, rfl, rfl⟩

end AiAuth.Library.Url
