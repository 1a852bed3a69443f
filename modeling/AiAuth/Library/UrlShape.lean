import AiAuth.Library.UrlBase

/-!
# The shape of a parsed URL

What the parser accepted, read back from what it stored: where the scheme ends, and which of
the three forms stands behind it.
-/
namespace AiAuth.Library.Url

/-! ## Schemes -/

/-- What may follow the first letter of a scheme. -/
def schemeChar (c : UInt8) : Bool := isLetter c || isDigit c || c ∈ ascii "+-."

lemma validScheme_snoc {s : Bytes} {c : UInt8} (hs : s = [] ∨ validScheme s = true)
    (hc : schemeChar c = true) (hfirst : s = [] → isLetter c = true) :
    validScheme (s ++ [c]) = true := by
  cases s with
  | nil => simp [validScheme, hfirst rfl]
  | cons d s =>
    have hd := hs.resolve_left (by simp)
    simp only [validScheme, Bool.and_eq_true] at hd
    simp only [List.cons_append, validScheme, List.all_append, List.all_cons, List.all_nil,
      Bool.and_true, Bool.and_eq_true]
    exact ⟨hd.1, hd.2, hc⟩

/-- A scheme that is found is valid and stands in front of a colon. -/
lemma getSchemeFrom_some {raw seen text s rest : Bytes} (hraw : raw = seen ++ text)
    (hseen : seen = [] ∨ validScheme seen = true)
    (h : getSchemeFrom raw seen.length text = some (s, rest)) (hs : s ≠ []) :
    validScheme s = true ∧ raw = s ++ ch ':' :: rest := by
  induction text generalizing seen with
  | nil =>
    rw [getSchemeFrom] at h
    exact absurd (Prod.mk.inj (Option.some.inj h)).1.symm hs
  | cons c text ih =>
    have hnext : schemeChar c = true → (seen = [] → isLetter c = true) →
        getSchemeFrom raw (seen.length + 1) text = some (s, rest) →
        validScheme s = true ∧ raw = s ++ ch ':' :: rest := by
      intro hc hfirst hrec
      refine ih (by simpa using hraw) (.inr (validScheme_snoc hseen hc hfirst)) ?_
      simpa using hrec
    rw [getSchemeFrom] at h
    by_cases hletter : isLetter c = true
    · rw [if_pos hletter] at h
      exact hnext (by simp [schemeChar, hletter]) (fun _ => hletter) h
    · rw [if_neg hletter] at h
      by_cases hother : (isDigit c || decide (c ∈ ascii "+-.")) = true
      · rw [if_pos hother] at h
        by_cases hzero : seen.length = 0
        · rw [if_pos hzero] at h
          exact absurd (Prod.mk.inj (Option.some.inj h)).1.symm hs
        · rw [if_neg hzero] at h
          refine hnext ?_ (fun hnil => absurd (congrArg List.length hnil) hzero) h
          rw [schemeChar, Bool.or_assoc, hother, Bool.or_true]
      · rw [if_neg hother] at h
        by_cases hcolon : c = ch ':'
        · rw [if_pos hcolon] at h
          by_cases hzero : seen.length = 0
          · rw [if_pos hzero] at h
            cases h
          · rw [if_neg hzero] at h
            obtain ⟨htake, rfl⟩ := Prod.mk.inj (Option.some.inj h)
            rw [hraw, List.take_left] at htake
            subst htake
            exact ⟨hseen.resolve_left fun hnil => hzero (congrArg List.length hnil),
              hcolon ▸ hraw⟩
        · rw [if_neg hcolon] at h
          exact absurd (Prod.mk.inj (Option.some.inj h)).1.symm hs

theorem getScheme_some {raw s rest : Bytes} (h : getScheme raw = some (s, rest)) (hs : s ≠ []) :
    validScheme s = true ∧ raw = s ++ ch ':' :: rest :=
  getSchemeFrom_some (List.nil_append raw).symm (.inl rfl) h hs

lemma colon_notMem_scheme {s : Bytes} (h : validScheme s = true) : ch ':' ∉ s := by
  cases s with
  | nil => cases h
  | cons c s =>
    simp only [validScheme, Bool.and_eq_true, List.all_eq_true] at h
    intro hmem
    have hcolon : isLetter (ch ':') = false ∧
        (isLetter (ch ':') || isDigit (ch ':') || decide (ch ':' ∈ ascii "+-.")) = false := by
      decide
    rcases List.mem_cons.mp hmem with rfl | hmem
    · rw [hcolon.1] at h
      cases h.1
    · have hbad := h.2 _ hmem
      rw [hcolon.2] at hbad
      cases hbad

/-! ## What stands behind the scheme -/

/-- The three forms of an absolute URL without query and fragment: an opaque part, an authority
with a path, or a rooted path. -/
inductive Shape (scheme rest : Bytes) (u : URL) : Prop
  | opaquePart : rest.head? ≠ some (ch '/') →
    u = { URL.empty with scheme := scheme, opaquePart := rest } → Shape scheme rest u
  | authority {tail user host} : rest = ascii "//" ++ tail →
    parseAuthority (tail.takeWhile (· != ch '/')) = some (user, host) →
    { URL.empty with scheme := scheme, user := user, host := host }.setPath
      (tail.dropWhile (· != ch '/')) = some u → Shape scheme rest u
  | rooted : ¬ ascii "//" <+: rest →
    { URL.empty with scheme := scheme, omitHost := true }.setPath rest = some u →
    Shape scheme rest u

theorem parse_shape {raw : Bytes} {u : URL} (h : parse raw = some u) (hscheme : u.scheme ≠ [])
    (hquery : ch '?' ∉ raw) (hhash : ch '#' ∉ raw) :
    ∃ s rest, validScheme s = true ∧ raw = s ++ ch ':' :: rest ∧ raw.any isCTL = false ∧
      u.scheme = toLower s ∧ Shape (toLower s) rest u := by
  unfold parse at h
  rw [cut_of_notMem hhash] at h
  obtain ⟨v, hv, hvu⟩ := Option.bind_eq_some_iff.mp h
  rw [Option.some.inj hvu] at hv
  unfold parseFrom at hv
  split_ifs at hv with hctl hempty hstar
  · obtain rfl := Option.some.inj hv
    exact absurd rfl hscheme
  · obtain ⟨⟨s, rest⟩, hget, hrest⟩ := Option.bind_eq_some_iff.mp hv
    have hlower : u.scheme = toLower s := (parseHierarchy_path rfl hrest).1
    have hs : s ≠ [] := by
      rintro rfl
      exact hscheme hlower
    obtain ⟨hvalid, rfl⟩ := getScheme_some hget hs
    have hne : toLower s ≠ [] := hlower ▸ hscheme
    have hrest' : splitQuery rest = (rest, [], false) :=
      splitQuery_of_notMem fun hmem =>
        hquery (List.mem_append_right s (List.mem_cons_of_mem _ hmem))
    simp only [hrest'] at hrest
    refine ⟨s, rest, hvalid, rfl, by simpa using hctl, hlower, ?_⟩
    unfold parseHierarchy at hrest
    split_ifs at hrest with hrooted hrequest hcolon hauthority
    · exact .opaquePart hrooted.1 (Option.some.inj hrest).symm
    · obtain ⟨⟨user, host⟩, hauth, hset⟩ := Option.bind_eq_some_iff.mp hrest
      obtain ⟨tail, rfl⟩ := List.isPrefixOf_iff_prefix.mp hauthority.2
      exact .authority rfl hauth hset
    · refine .rooted (fun hprefix => hauthority ⟨.inl hne, List.isPrefixOf_iff_prefix.mpr hprefix⟩) ?_
      have hslash : rest.head? = some (ch '/') := by
        by_contra hno
        exact hrooted ⟨hno, hne⟩
      simpa [hne, hslash, URL.empty] using hrest

/-! ## Hosts -/

lemma unescape_eq_nil {mode : Encoding} {s : Bytes} (h : unescape mode s = some []) : s = [] := by
  cases s with
  | nil => rfl
  | cons c s =>
    unfold unescape at h
    split_ifs at h
    · split at h
      · split_ifs at h
        simp at h
      · cases h
    · simp at h
    · simp at h

/-- A host is empty only when its text is. -/
lemma parseHost_eq_nil {text host : Bytes} (h : parseHost text = some host) :
    host = [] ↔ text = [] := by
  constructor
  · rintro rfl
    unfold parseHost at h
    by_cases hbracket : text.head? = some (ch '[')
    · rw [if_pos hbracket] at h
      split at h
      · cases h
      · split_ifs at h
        split at h
        · simp only [Option.bind_eq_bind, Option.bind_eq_some_iff, Option.some.injEq,
            List.append_eq_nil_iff] at h
          obtain ⟨host₁, -, host₂, -, host₃, htail, -, rfl⟩ := h
          cases unescape_eq_nil htail
        · exact unescape_eq_nil h
    · rw [if_neg hbracket] at h
      split at h
      · split_ifs at h
        exact unescape_eq_nil h
      · exact unescape_eq_nil h
  · rintro rfl
    exact (Option.some.inj h).symm

/-- The text of the host in an authority: what follows the user information. -/
def hostText (authority : Bytes) : Bytes := ((cutLast (ch '@') authority).map Prod.snd).getD authority

theorem parseAuthority_host {authority host : Bytes} {user : Option Userinfo}
    (h : parseAuthority authority = some (user, host)) :
    parseHost (hostText authority) = some host := by
  unfold parseAuthority at h
  unfold hostText
  cases hcut : cutLast (ch '@') authority with
  | none =>
    rw [hcut] at h
    obtain ⟨host', hhost, heq⟩ := Option.map_eq_some_iff.mp h
    rw [← (Prod.mk.inj heq).2]
    exact hhost
  | some parts =>
    obtain ⟨userinfo, rest⟩ := parts
    rw [hcut] at h
    simp only [Option.bind_eq_bind, Option.bind_eq_some_iff] at h
    obtain ⟨host', hhost, h⟩ := h
    have hsame : host' = host := by
      split_ifs at h
      · obtain ⟨username, -, h⟩ := Option.bind_eq_some_iff.mp h
        obtain ⟨password, -, heq⟩ := Option.bind_eq_some_iff.mp h
        exact (Prod.mk.inj (Option.some.inj heq)).2
      · obtain ⟨username, -, heq⟩ := Option.bind_eq_some_iff.mp h
        exact (Prod.mk.inj (Option.some.inj heq)).2
    exact hsame ▸ hhost

end AiAuth.Library.Url
