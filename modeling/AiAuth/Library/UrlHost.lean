import AiAuth.Library.UrlEscape
import AiAuth.Library.UrlShape

/-!
# Hosts that read back

A parsed host is written with escapes and read again. It comes back as it was, unless it is
bracketed and has a zone with a byte that is not ASCII: such a byte may stand there, but its
escape may not.
-/
namespace AiAuth.Library.Url

/-! ## The bytes of a host -/

/-- What decoding a host can give: a byte that stands for itself, a percent sign, or a byte that
is not ASCII. -/
def hostByte (c : UInt8) : Bool := 128 ≤ c || c == ch '%' || !shouldEscape c .host

/-- In a zone there may be spaces, too. -/
def zoneByte (c : UInt8) : Bool := hostByte c || c == ch ' '

/-- The escaped percent sign in front of a zone. -/
def marker : Bytes := ascii "%25"

/-- How the classes of bytes lie to each other. -/
structure HostClasses (c : UInt8) : Prop where
  unhex_lt : (unhex c).toNat < 16
  zone_eq : shouldEscape c .zone = shouldEscape c .host
  host : hostByte c = true → shouldEscape c .host = true → mayEscape .host c = true
  zone : zoneByte c = true → c < 128 → shouldEscape c .zone = true → mayEscape .zone c = true
  marker_ne : c ≠ ch '%' → marker ≠ pct c
  upperhex : upperhex (c / 16) ≠ ch '%' ∧ upperhex (c % 16) ≠ ch '%'
  ishex : ishex c = true → c ≠ ch '%'
  digit : isDigit c = true → shouldEscape c .host = false ∧ c ≠ ch ']'

/-- Every byte is looked at, once for all. -/
theorem hostClasses (c : UInt8) : HostClasses c := by
  have hall : ∀ c, decide (((unhex c).toNat < 16 ∧ shouldEscape c .zone = shouldEscape c .host ∧
      (hostByte c = true → shouldEscape c .host = true → mayEscape .host c = true) ∧
      (zoneByte c = true → c < 128 → shouldEscape c .zone = true → mayEscape .zone c = true)) ∧
      (c ≠ ch '%' → marker ≠ pct c) ∧
      (upperhex (c / 16) ≠ ch '%' ∧ upperhex (c % 16) ≠ ch '%') ∧ (ishex c = true → c ≠ ch '%') ∧
      (isDigit c = true → shouldEscape c .host = false ∧ c ≠ ch ']')) = true :=
    forall_byte (by decide +kernel)
  obtain ⟨⟨hunhex, hzone, hhost, hzone'⟩, hmarker, hupper, hhex, hdigit⟩ :=
    of_decide_eq_true (hall c)
  exact ⟨hunhex, hzone, hhost, hzone', hmarker, hupper, hhex, hdigit⟩

lemma hex_toNat (h l : UInt8) :
    (unhex h * 16 + unhex l).toNat = (unhex h).toNat * 16 + (unhex l).toNat := by
  have hh := (hostClasses h).unhex_lt
  have hl := (hostClasses l).unhex_lt
  have h16 : (16 : UInt8).toNat = 16 := rfl
  rw [UInt8.toNat_add, UInt8.toNat_mul, h16]
  omega

/-- An escape in a host stands for a percent sign or for a byte that is not ASCII. -/
lemma hex_host {h l : UInt8} (hallowed : escapeAllowed .host h l = true) :
    128 ≤ unhex h * 16 + unhex l ∨ (h = ch '2' ∧ l = ch '5') := by
  by_cases hpercent : h = ch '2' ∧ l = ch '5'
  · exact .inr hpercent
  · left
    have hbig : ¬ unhex h < 8 := by
      intro hlt
      simp only [escapeAllowed, hlt, Bool.not_eq_true', Bool.and_eq_false_iff, decide_true,
        Bool.not_eq_false', Bool.and_eq_true, beq_iff_eq] at hallowed
      exact hpercent (hallowed.resolve_left (by simp))
    have hnat := UInt8.le_iff_toNat_le.mp (UInt8.not_lt.mp hbig)
    rw [UInt8.le_iff_toNat_le, hex_toNat]
    have h8 : (8 : UInt8).toNat = 8 := rfl
    have h128 : (128 : UInt8).toNat = 128 := rfl
    omega

lemma hostByte_hex {h l : UInt8} (hallowed : escapeAllowed .host h l = true) :
    hostByte (unhex h * 16 + unhex l) = true := by
  rcases hex_host hallowed with hbig | ⟨rfl, rfl⟩
  · simp [hostByte, hbig]
  · rfl

lemma zoneByte_hex {h l : UInt8} (hallowed : escapeAllowed .zone h l = true) :
    zoneByte (unhex h * 16 + unhex l) = true := by
  simp only [escapeAllowed, Bool.or_eq_true, Bool.and_eq_true, beq_iff_eq] at hallowed
  rcases hallowed with (⟨rfl, rfl⟩ | hspace) | hself
  · rfl
  · simp [zoneByte, hspace]
  · simp [zoneByte, hostByte, hself]

/-- A property of the escapes and of the bytes that stand for themselves is one of the decoded
text. -/
lemma forall_mem_unescape {mode : Encoding} {p : UInt8 → Bool} {s t : Bytes}
    (hmode : mode = .host ∨ mode = .zone)
    (hhex : ∀ h l, escapeAllowed mode h l = true → p (unhex h * 16 + unhex l) = true)
    (hself : ∀ c ∈ s, c ≠ ch '%' → (128 ≤ c ∨ shouldEscape c mode = false) → p c = true)
    (h : unescape mode s = some t) : ∀ c ∈ t, p c = true := by
  induction s using unescape.induct mode generalizing t with
  | case1 =>
    obtain rfl := Option.some.inj h
    simp
  | case2 a b rest hallowed ih =>
    rw [unescape, if_pos rfl] at h
    obtain ⟨t', ht, rfl⟩ := Option.map_eq_some_iff.mp ((if_pos hallowed).symm.trans h)
    simp only [Bool.and_eq_true] at hallowed
    exact List.forall_mem_cons.mpr ⟨hhex a b hallowed.2, ih (fun c hc => hself c (by simp [hc])) ht⟩
  | case3 a b rest hallowed =>
    rw [unescape, if_pos rfl] at h
    cases (if_neg hallowed).symm.trans h
  | case4 rest hshort =>
    rw [unescape, if_pos rfl] at h
    · cases h
    · exact hshort
  | case5 c rest hc hplus ih =>
    simp only [Bool.and_eq_true, decide_eq_true_eq] at hplus
    rcases hmode with rfl | rfl <;> cases hplus.2
  | case6 c rest hc hplus hbad =>
    rw [unescape.eq_def] at h
    dsimp only at h
    rw [if_neg hc, if_neg hplus, if_pos hbad] at h
    cases h
  | case7 c rest hc hplus hbad ih =>
    rw [unescape.eq_def] at h
    dsimp only at h
    rw [if_neg hc, if_neg hplus, if_neg hbad] at h
    obtain ⟨t', ht, rfl⟩ := Option.map_eq_some_iff.mp h
    have hkept : 128 ≤ c ∨ shouldEscape c mode = false := by
      by_cases hascii : c < 128
      · right
        rcases hmode with rfl | rfl <;> simpa [hascii] using hbad
      · exact .inl (UInt8.not_lt.mp hascii)
    exact List.forall_mem_cons.mpr ⟨hself c List.mem_cons_self hc hkept,
      ih (fun d hd => hself d (List.mem_cons_of_mem c hd)) ht⟩

lemma hostByte_of_unescape {s t : Bytes} (h : unescape .host s = some t) :
    ∀ c ∈ t, hostByte c = true := by
  refine forall_mem_unescape (.inl rfl) (fun _ _ => hostByte_hex) (fun c _ _ hc => ?_) h
  rcases hc with hbig | hself
  · simp [hostByte, hbig]
  · simp [hostByte, hself]

lemma zoneByte_of_unescape {s t : Bytes} (h : unescape .zone s = some t) :
    ∀ c ∈ t, zoneByte c = true := by
  refine forall_mem_unescape (.inr rfl) (fun _ _ => zoneByte_hex) (fun c _ _ hc => ?_) h
  rcases hc with hbig | hself
  · simp [zoneByte, hostByte, hbig]
  · rw [(hostClasses _).zone_eq] at hself
    simp [zoneByte, hostByte, hself]

/-- Decoding a host makes no colon and no bracket. -/
lemma notMem_of_unescape_host {s t : Bytes} {c : UInt8} (hc : c < 128) (hpercent : c ≠ ch '%')
    (hs : c ∉ s) (h : unescape .host s = some t) : c ∉ t := by
  intro hmem
  have hall := forall_mem_unescape (p := fun b => b != c) (.inl rfl) (fun a b hallowed => ?_)
    (fun d hd _ _ => ?_) h c hmem
  · simp at hall
  · rw [bne_iff_ne]
    rcases hex_host hallowed with hbig | ⟨rfl, rfl⟩
    · rintro rfl
      exact absurd hc (UInt8.not_lt.mpr hbig)
    · exact Ne.symm hpercent
  · rw [bne_iff_ne]
    rintro rfl
    exact hs hd

/-- A decoded host reads back. -/
lemma unescape_escape_host {s : Bytes} (h : ∀ c ∈ s, hostByte c = true) :
    unescape .host (escape .host s) = some s :=
  unescape_escape fun c hc => (hostClasses c).host (h c hc)

lemma escape_zone (s : Bytes) : escape .zone s = escape .host s := by
  induction s with
  | nil => rfl
  | cons c s ih => rw [escape_cons, escape_cons, ih, escapeByte, escapeByte,
      (hostClasses c).zone_eq]; simp

/-- A zone reads back if it is ASCII. -/
lemma unescape_escape_zone {s : Bytes} (h : ∀ c ∈ s, zoneByte c = true)
    (hascii : ∀ c ∈ s, c < 128) :
    unescape .zone (escape .host s) = some s := by
  rw [← escape_zone]
  exact unescape_escape fun c hc => (hostClasses c).zone (h c hc) (hascii c hc)

/-! ## Where a zone begins -/

lemma marker_eq : marker = pct (ch '%') := rfl

lemma splitAtMarker_cons {c : UInt8} (hc : c ≠ ch '%') (s : Bytes) :
    splitAtMarker marker (c :: s) = (splitAtMarker marker s).map fun (a, b) => (c :: a, b) := by
  rw [splitAtMarker, if_neg]
  rw [List.isPrefixOf_iff_prefix]
  rintro ⟨rest, hrest⟩
  exact hc (List.cons.inj hrest).1.symm

lemma splitAtMarker_here (s : Bytes) :
    splitAtMarker marker (marker ++ s) = some ([], marker ++ s) := by
  have hcons : marker ++ s = ch '%' :: (ascii "25" ++ s) := rfl
  rw [hcons, splitAtMarker, if_pos, ← hcons]
  rw [← hcons, List.isPrefixOf_iff_prefix]
  exact List.prefix_append _ _

/-- No marker begins inside of a written byte other than the percent sign. -/
lemma splitAtMarker_escapeByte {c : UInt8} (hc : c ≠ ch '%') (s : Bytes) :
    splitAtMarker marker (escapeByte .host c ++ s) =
      (splitAtMarker marker s).map fun (a, b) => (escapeByte .host c ++ a, b) := by
  unfold escapeByte
  rw [if_neg (by simp)]
  by_cases hesc : shouldEscape c .host = true
  · rw [if_pos hesc]
    have hne : marker ≠ pct c := (hostClasses c).marker_ne hc
    have hdigit := (hostClasses c).upperhex
    have hnot : ¬ marker.isPrefixOf (pct c ++ s) = true := by
      rw [List.isPrefixOf_iff_prefix]
      intro hpre
      have htake := List.prefix_iff_eq_take.mp hpre
      exact hne (by rw [htake]; rfl)
    have hcons : pct c ++ s = ch '%' :: upperhex (c / 16) :: upperhex (c % 16) :: s := rfl
    rw [hcons] at hnot ⊢
    rw [splitAtMarker, if_neg hnot, splitAtMarker_cons hdigit.1, splitAtMarker_cons hdigit.2,
      Option.map_map, Option.map_map]
    rfl
  · rw [if_neg hesc]
    exact splitAtMarker_cons hc s

lemma splitAtMarker_escape {s : Bytes} (hs : ch '%' ∉ s) (t : Bytes) :
    splitAtMarker marker (escape .host s ++ t) =
      (splitAtMarker marker t).map fun (a, b) => (escape .host s ++ a, b) := by
  induction s with
  | nil => cases h : splitAtMarker marker t <;> simp [escape, h]
  | cons c s ih =>
    simp only [List.mem_cons, not_or] at hs
    rw [escape_cons, List.append_assoc, splitAtMarker_escapeByte (Ne.symm hs.1), ih hs.2,
      Option.map_map]
    cases splitAtMarker marker t <;> simp

/-- What is in front of a marker holds none. -/
lemma splitAtMarker_some {m s a z : Bytes} (h : splitAtMarker m s = some (a, z)) :
    s = a ++ z ∧ m <+: z ∧ splitAtMarker m a = none := by
  induction s generalizing a with
  | nil => cases h
  | cons c s ih =>
    rw [splitAtMarker] at h
    by_cases hpre : m.isPrefixOf (c :: s) = true
    · rw [if_pos hpre] at h
      obtain ⟨rfl, rfl⟩ := Prod.mk.inj (Option.some.inj h)
      exact ⟨rfl, List.isPrefixOf_iff_prefix.mp hpre, rfl⟩
    · rw [if_neg hpre] at h
      obtain ⟨⟨a', z'⟩, hsome, heq⟩ := Option.map_eq_some_iff.mp h
      obtain ⟨rfl, rfl⟩ := Prod.mk.inj heq
      obtain ⟨rfl, hz, hnone⟩ := ih hsome
      refine ⟨rfl, hz, ?_⟩
      rw [splitAtMarker, if_neg, hnone]
      · rfl
      · rw [List.isPrefixOf_iff_prefix] at hpre ⊢
        exact fun hpre' => hpre (hpre'.trans (List.prefix_append (c :: a') z'))

/-- Without a marker, decoding a host makes no percent sign. -/
lemma percent_notMem {s t : Bytes} (hs : splitAtMarker marker s = none)
    (h : unescape .host s = some t) : ch '%' ∉ t := by
  induction s using unescape.induct Encoding.host generalizing t with
  | case1 =>
    obtain rfl := Option.some.inj h
    simp
  | case2 a b rest hallowed ih =>
    rw [unescape, if_pos rfl] at h
    obtain ⟨t', ht, rfl⟩ := Option.map_eq_some_iff.mp ((if_pos hallowed).symm.trans h)
    simp only [Bool.and_eq_true] at hallowed
    have ha : a ≠ ch '%' := (hostClasses a).ishex hallowed.1.1
    have hb : b ≠ ch '%' := (hostClasses b).ishex hallowed.1.2
    rw [splitAtMarker] at hs
    by_cases hpre : marker.isPrefixOf (ch '%' :: a :: b :: rest) = true
    · rw [if_pos hpre] at hs
      cases hs
    · rw [if_neg hpre, splitAtMarker_cons ha, splitAtMarker_cons hb, Option.map_eq_none_iff,
        Option.map_eq_none_iff, Option.map_eq_none_iff] at hs
      rw [List.mem_cons, not_or]
      refine ⟨?_, ih hs ht⟩
      rcases hex_host hallowed.2 with hbig | ⟨rfl, rfl⟩
      · intro heq
        rw [← heq] at hbig
        exact absurd hbig (by decide)
      · refine absurd (List.isPrefixOf_iff_prefix.mpr ?_) hpre
        exact ⟨rest, rfl⟩
  | case3 a b rest hallowed =>
    rw [unescape, if_pos rfl] at h
    cases (if_neg hallowed).symm.trans h
  | case4 rest hshort =>
    rw [unescape, if_pos rfl] at h
    · cases h
    · exact hshort
  | case5 c rest hc hplus ih => simp at hplus
  | case6 c rest hc hplus hbad =>
    rw [unescape.eq_def] at h
    dsimp only at h
    rw [if_neg hc, if_neg hplus, if_pos hbad] at h
    cases h
  | case7 c rest hc hplus hbad ih =>
    rw [unescape.eq_def] at h
    dsimp only at h
    rw [if_neg hc, if_neg hplus, if_neg hbad] at h
    obtain ⟨t', ht, rfl⟩ := Option.map_eq_some_iff.mp h
    rw [splitAtMarker_cons hc, Option.map_eq_none_iff] at hs
    rw [List.mem_cons, not_or]
    exact ⟨Ne.symm hc, ih hs ht⟩

/-! ## Hosts -/

lemma escape_host_self {s : Bytes} (h : ∀ c ∈ s, shouldEscape c .host = false) :
    escape .host s = s := by
  induction s with
  | nil => rfl
  | cons c s ih =>
    obtain ⟨hc, hs⟩ := List.forall_mem_cons.mp h
    rw [escape_cons, ih hs, escapeByte, if_neg (by simp), if_neg (by simp [hc])]
    rfl

lemma unescape_host_self {s : Bytes} (h : ∀ c ∈ s, shouldEscape c .host = false) :
    unescape .host s = some s := by
  have hread : unescape .host (escape .host s) = some s := unescape_escape fun c hc hesc => by
    rw [h c hc] at hesc
    cases hesc
  rwa [escape_host_self h] at hread

/-- A port is kept in writing and in reading. -/
lemma port_plain {port : Bytes} (h : validOptionalPort port = true) :
    ∀ c ∈ port, shouldEscape c .host = false ∧ c ≠ ch ']' := by
  cases port with
  | nil => simp
  | cons d digits =>
    simp only [validOptionalPort, Bool.and_eq_true, beq_iff_eq, List.all_eq_true] at h
    obtain ⟨rfl, hall⟩ := h
    refine List.forall_mem_cons.mpr ⟨⟨rfl, by decide⟩, fun c hc => ?_⟩
    exact (hostClasses c).digit (hall c hc)

lemma unescape_host_cons {c : UInt8} (hc : shouldEscape c .host = false) (s : Bytes) :
    unescape .host (c :: s) = (unescape .host s).map (c :: ·) := by
  have hcons : unescape .host (escapeByte .host c ++ s) = (unescape .host s).map (c :: ·) :=
    unescape_escapeByte (fun hesc => by
      rw [hc] at hesc
      cases hesc) s
  rwa [escapeByte, if_neg (by simp), if_neg (by simp [hc]), List.singleton_append] at hcons

/-- An opening bracket is the first byte of a host if it is the first byte of its text. -/
lemma bracket_unescape {s t : Bytes} (h : unescape .host s = some t) :
    t.head? = some (ch '[') ↔ s.head? = some (ch '[') := by
  cases s with
  | nil =>
    obtain rfl := Option.some.inj h
    rfl
  | cons c s =>
    by_cases hc : c = ch '['
    · rw [hc, unescape_host_cons rfl] at h
      obtain ⟨t', -, rfl⟩ := Option.map_eq_some_iff.mp h
      rw [hc]
      rfl
    · have hne : t.head? ≠ some (ch '[') := by
        rw [unescape.eq_def] at h
        dsimp only at h
        split_ifs at h with hpercent hplus hbad
        · split at h
          next a b rest =>
            split_ifs at h with hallowed
            obtain ⟨t', -, rfl⟩ := Option.map_eq_some_iff.mp h
            simp only [Bool.and_eq_true] at hallowed
            rw [List.head?_cons]
            intro heq
            rcases hex_host hallowed.2 with hbig | ⟨rfl, rfl⟩
            · rw [Option.some.inj heq] at hbig
              exact absurd hbig (by decide)
            · exact absurd heq (by decide)
          · cases h
        · obtain ⟨t', -, rfl⟩ := Option.map_eq_some_iff.mp h
          exact absurd hplus (by simp)
        · obtain ⟨t', -, rfl⟩ := Option.map_eq_some_iff.mp h
          exact fun heq => hc (Option.some.inj heq)
      exact iff_of_false hne fun heq => hc (Option.some.inj heq)

/-- The text of a host without brackets. -/
lemma parseHost_plain {s : Bytes} (hbracket : s.head? ≠ some (ch '['))
    (hport : ∀ a port, s = a ++ ch ':' :: port → ch ':' ∉ port →
      validOptionalPort (ch ':' :: port) = true) : parseHost s = unescape .host s := by
  rw [parseHost, if_neg hbracket]
  cases hcut : cutLast (ch ':') s with
  | none => rfl
  | some parts =>
    obtain ⟨a, port⟩ := parts
    obtain ⟨hs, hno⟩ := cutLast_some hcut
    have hvalid := hport a port hs hno
    dsimp only
    rw [hvalid]
    rfl

/-- The text of a bracketed host. -/
lemma parseHost_bracket {inner port : Bytes} (hbracket : inner.head? = some (ch '['))
    (hport : validOptionalPort port = true) :
    (splitAtMarker marker inner = none →
      parseHost (inner ++ ch ']' :: port) = unescape .host (inner ++ ch ']' :: port)) ∧
    ∀ addr zone, splitAtMarker marker inner = some (addr, zone) →
      parseHost (inner ++ ch ']' :: port) = (unescape .host addr).bind fun host₁ =>
        (unescape .zone zone).map fun host₂ => host₁ ++ host₂ ++ ch ']' :: port := by
  have hclose : ch ']' ∉ port := fun hmem => (port_plain hport _ hmem).2 rfl
  have htail : unescape .host (ch ']' :: port) = some (ch ']' :: port) :=
    unescape_host_self (List.forall_mem_cons.mpr
      ⟨rfl, fun c hc => (port_plain hport c hc).1⟩)
  have hhead : (inner ++ ch ']' :: port).head? = some (ch '[') := by
    rw [List.head?_append, hbracket]
    rfl
  have hmarker : ascii "%25" = marker := rfl
  rw [parseHost, if_pos hhead, cutLast_append hclose]
  dsimp only
  rw [hport, hmarker, if_neg (by simp)]
  refine ⟨fun hnone => by rw [hnone], fun addr zone hsome => ?_⟩
  rw [hsome]
  dsimp only
  rw [htail]
  cases unescape .host addr <;> cases unescape .zone zone <;> rfl

lemma bracket_escape (s : Bytes) :
    (escape .host s).head? = some (ch '[') ↔ s.head? = some (ch '[') := by
  cases s with
  | nil => rfl
  | cons c s =>
    rw [escape_cons, escapeByte, if_neg (by simp)]
    by_cases hesc : shouldEscape c .host = true
    · rw [if_pos hesc]
      refine iff_of_false (by simp [pct]) fun heq => ?_
      rw [Option.some.inj heq] at hesc
      exact absurd hesc (by decide)
    · rw [if_neg hesc]
      rfl

/-- The zone of a bracketed host, from its percent sign on. -/
def zoneOf (host : Bytes) : Bytes :=
  if host.head? = some (ch '[') then host.dropWhile (· != ch '%') else []

lemma parseHost_escape_plain {text host : Bytes} (hbracket : text.head? ≠ some (ch '['))
    (h : parseHost text = some host) : parseHost (escape .host host) = some host := by
  have hread : unescape .host text = some host ∧ ∀ a port, text = a ++ ch ':' :: port →
      ch ':' ∉ port → validOptionalPort (ch ':' :: port) = true := by
    rw [parseHost, if_neg hbracket] at h
    cases hcut : cutLast (ch ':') text with
    | none =>
      rw [hcut] at h
      refine ⟨h, fun a port htext hno => ?_⟩
      rw [htext, cutLast_append hno] at hcut
      cases hcut
    | some parts =>
      rw [hcut] at h
      dsimp only at h
      split_ifs at h with hvalid
      refine ⟨h, fun a port htext hno => ?_⟩
      rw [htext, cutLast_append hno] at hcut
      obtain rfl := Option.some.inj hcut
      simpa using hvalid
  obtain ⟨hread, hport⟩ := hread
  rw [parseHost_plain]
  · exact unescape_escape_host (hostByte_of_unescape hread)
  · rwa [Ne, bracket_escape, bracket_unescape hread]
  · intro a port hwritten hno
    by_cases hcolon : ch ':' ∈ text
    · obtain ⟨a', port', htext, hno'⟩ : ∃ a' port', text = a' ++ ch ':' :: port' ∧
          ch ':' ∉ port' := by
        cases hcut : cutLast (ch ':') text with
        | none =>
          rw [cutLast, if_pos hcolon] at hcut
          cases hcut
        | some parts => exact ⟨_, _, cutLast_some hcut⟩
      have hvalid := hport a' port' htext hno'
      have hself : ∀ c ∈ ch ':' :: port', shouldEscape c .host = false := fun c hc =>
        (port_plain hvalid c hc).1
      rw [htext, unescape_append_sep rfl, unescape_host_self hself] at hread
      obtain ⟨front, -, hfront⟩ := Option.bind_eq_some_iff.mp hread
      rw [← Option.some.inj hfront, escape_append, escape_host_self hself] at hwritten
      have hsame := cutLast_append hno a
      rw [← hwritten, cutLast_append hno'] at hsame
      rwa [← (Prod.mk.inj (Option.some.inj hsame)).2]
    · have hhost := notMem_of_unescape_host (by decide) (by decide) hcolon hread
      have hnone : ch ':' ∉ escape .host host :=
        notMem_escape_of (by decide) fun hmem => absurd hmem hhost
      exact absurd (hwritten ▸ by simp) hnone

section bracketed
variable {inner port host : Bytes}

/-- A bracketed host without a zone is escaped as a whole. -/
lemma parseHost_escape_bracket (hinner : inner.head? = some (ch '['))
    (hport : validOptionalPort port = true) (hsplit : splitAtMarker marker inner = none)
    (h : parseHost (inner ++ ch ']' :: port) = some host) :
    parseHost (escape .host host) = some host := by
  have htail : ∀ c ∈ ch ']' :: port, shouldEscape c .host = false :=
    List.forall_mem_cons.mpr ⟨rfl, fun c hc => (port_plain hport c hc).1⟩
  rw [(parseHost_bracket hinner hport).1 hsplit] at h
  have hall := hostByte_of_unescape h
  rw [unescape_append_sep rfl, unescape_host_self htail] at h
  obtain ⟨front, hfront, heq⟩ := Option.bind_eq_some_iff.mp h
  obtain rfl := Option.some.inj heq
  have hnone : splitAtMarker marker (escape .host front) = none := by
    have hmap := splitAtMarker_escape (percent_notMem hsplit hfront) []
    rwa [List.append_nil] at hmap
  have hhead := (bracket_escape front).mpr ((bracket_unescape hfront).mpr hinner)
  have hread := (parseHost_bracket hhead hport).1 hnone
  have hwhole := unescape_escape_host hall
  rw [escape_append, escape_host_self htail] at hwhole ⊢
  rw [hread, hwhole]

/-- A zone is escaped behind its marker. -/
lemma parseHost_escape_zone {addr zone : Bytes} (hinner : inner.head? = some (ch '['))
    (hport : validOptionalPort port = true) (hsplit : splitAtMarker marker inner = some (addr, zone))
    (h : parseHost (inner ++ ch ']' :: port) = some host) (hzone : ∀ c ∈ zoneOf host, c < 128) :
    parseHost (escape .host host) = some host := by
  have htail : ∀ c ∈ ch ']' :: port, shouldEscape c .host = false :=
    List.forall_mem_cons.mpr ⟨rfl, fun c hc => (port_plain hport c hc).1⟩
  rw [(parseHost_bracket hinner hport).2 addr zone hsplit] at h
  obtain ⟨host₁, hhost₁, h⟩ := Option.bind_eq_some_iff.mp h
  obtain ⟨host₂, hhost₂, rfl⟩ := Option.map_eq_some_iff.mp h
  obtain ⟨rfl, ⟨z, rfl⟩, hnone⟩ := splitAtMarker_some hsplit
  have hpercent := percent_notMem hnone hhost₁
  rw [marker_eq, unescape_pct_mode rfl] at hhost₂
  obtain ⟨z', hz', rfl⟩ := Option.map_eq_some_iff.mp hhost₂
  have haddr : addr.head? = some (ch '[') := by
    cases addr with
    | nil => exact absurd (Option.some.inj hinner) (by decide)
    | cons c addr => exact hinner
  have hhead := (bracket_unescape hhost₁).mpr haddr
  have hascii : ∀ c ∈ z', c < 128 := by
    intro c hc
    refine hzone c ?_
    have hdrop : ∀ b ∈ host₁, (b != ch '%') = true := fun b hb => by
      rw [bne_iff_ne]
      exact fun heq => hpercent (heq ▸ hb)
    rw [zoneOf, if_pos (by rw [List.append_assoc, List.head?_append, hhead]; rfl),
      List.append_assoc, List.dropWhile_append_of_pos hdrop]
    simp [hc]
  have hwritten : escape .host (host₁ ++ ch '%' :: z' ++ ch ']' :: port) =
      (escape .host host₁ ++ (marker ++ escape .host z')) ++ ch ']' :: port := by
    rw [escape_append, escape_append, escape_host_self htail, escape_cons]
    rfl
  have hsplit' : splitAtMarker marker (escape .host host₁ ++ (marker ++ escape .host z')) =
      some (escape .host host₁, marker ++ escape .host z') := by
    rw [splitAtMarker_escape hpercent, splitAtMarker_here, Option.map_some]
    simp only [List.append_nil]
  have hopen : (escape .host host₁ ++ (marker ++ escape .host z')).head? = some (ch '[') := by
    rw [List.head?_append, (bracket_escape host₁).mpr hhead]
    rfl
  rw [hwritten, (parseHost_bracket hopen hport).2 _ _ hsplit',
    unescape_escape_host (hostByte_of_unescape hhost₁), marker_eq,
    unescape_pct_mode rfl, unescape_escape_zone (zoneByte_of_unescape hz') hascii]
  rfl

end bracketed

/-- A host reads back from its escaped text unless its zone holds a byte that is not ASCII. -/
theorem parseHost_escape {text host : Bytes} (h : parseHost text = some host)
    (hzone : ∀ c ∈ zoneOf host, c < 128) : parseHost (escape .host host) = some host := by
  by_cases hbracket : text.head? = some (ch '[')
  · obtain ⟨inner, port, rfl, hport⟩ : ∃ inner port, text = inner ++ ch ']' :: port ∧
        validOptionalPort port = true := by
      rw [parseHost, if_pos hbracket] at h
      cases hcut : cutLast (ch ']') text with
      | none =>
        rw [hcut] at h
        cases h
      | some parts =>
        rw [hcut] at h
        dsimp only at h
        split_ifs at h with hvalid
        exact ⟨_, _, (cutLast_some hcut).1, by simpa using hvalid⟩
    have hinner : inner.head? = some (ch '[') := by
      cases inner with
      | nil => exact absurd (Option.some.inj hbracket) (by decide)
      | cons c inner => exact hbracket
    cases hsplit : splitAtMarker marker inner with
    | none => exact parseHost_escape_bracket hinner hport hsplit h
    | some parts => exact parseHost_escape_zone hinner hport hsplit h hzone
  · exact parseHost_escape_plain hbracket h

end AiAuth.Library.Url
