import AiAuth.Discovery
import AiAuth.Library.Quote
import AiAuth.TokenRoundTrip

/-!
# Key encodings

A public key is written by two thumbprints and by the key set, and read by the verifier of
proofs. All four pad the coordinates to 32 bytes and agree on every point of the curve.
-/
namespace AiAuth.Tokens
open Library

/-- The text of a key, with both coordinates as quoted strings. -/
def jwkText (isPrint : ℕ → Bool) (k : P256.Point) : Bytes :=
  ascii "\x7b\"crv\":\"P-256\",\"kty\":\"EC\",\"x\":" ++
    Quote.quote isPrint (Base64.encode (bigEndian 32 k.x)) ++ ascii ",\"y\":" ++
    Quote.quote isPrint (Base64.encode (bigEndian 32 k.y)) ++ ascii "\x7d"

/-- The thumbprint that binds a token to a key. -/
def thumbprint (isPrint : ℕ → Bool) (C : Crypto) (k : P256.Point) : Bytes :=
  Base64.encode (C.sha256 (jwkText isPrint k))

end AiAuth.Tokens

namespace AiAuth.Oidc
open Library

/-- A public key as the key set publishes it. -/
structure JWK where
  kty : Bytes
  crv : Bytes
  kid : Bytes
  usage : Bytes
  alg : Bytes
  x : Bytes
  y : Bytes
  deriving DecidableEq

/-- The members of its text; strings are repaired to UTF-8. -/
def JWK.members (repair : Bytes → Bytes) (j : JWK) : List (Bytes × Json) :=
  [(ascii "kty", .string (repair j.kty)), (ascii "crv", .string (repair j.crv)),
    (ascii "kid", .string (repair j.kid)), (ascii "use", .string (repair j.usage)),
    (ascii "alg", .string (repair j.alg)), (ascii "x", .string (repair j.x)),
    (ascii "y", .string (repair j.y))]

/-- The entry of one key. -/
def JWK.of (kid : Bytes) (k : P256.Point) : JWK where
  kty := ascii "EC"
  crv := ascii "P-256"
  kid := kid
  usage := ascii "sig"
  alg := ascii "ES256"
  x := Base64.encode (bigEndian 32 k.x)
  y := Base64.encode (bigEndian 32 k.y)

structure JWKS where
  keys : List JWK

/-- The key set, over the keys by their ids in the order in which the map gives them. -/
def JWKS.new (keys : List (Bytes × P256.Point)) : JWKS := ⟨keys.map fun e => JWK.of e.1 e.2⟩

end AiAuth.Oidc

namespace AiAuth.Dpop
open Library

/-! ## Reading a key -/

namespace JWK

/-- The members that are read, by name. -/
def names : List Bytes := [ascii "kty", ascii "crv", ascii "x", ascii "y", ascii "d"]

/-- What a field holds after all members were read: the last string under its name, in any case
of its letters. -/
def field (fold : Bytes → Bytes → Bool) (ms : List (Bytes × Json)) (name : Bytes) : Bytes :=
  (((ms.filter fun m => fold m.1 name).filterMap fun m => m.2.asStr).getLast?).getD []

/-- What can be read into a field: a string, or null, which leaves it as it is. -/
def fits : Json → Bool
  | .null | .string _ => true
  | _ => false

/-- The record of an object's members. A member under another name can be anything. -/
def ofMembers (fold : Bytes → Bytes → Bool) (ms : List (Bytes × Json)) : Option JWK :=
  if ms.all fun m => fits m.2 || !(names.any fun name => fold m.1 name) then
    some ⟨field fold ms (ascii "kty"), field fold ms (ascii "crv"), field fold ms (ascii "x"),
      field fold ms (ascii "y"), field fold ms (ascii "d")⟩
  else none

/-- What a record must say to be read as a point. The coordinates can be spelled in many ways. -/
structure Spells (j : JWK) (k : P256.Point) : Prop where
  d : j.d = []
  kty : j.kty = ascii "EC"
  crv : j.crv = ascii "P-256"
  x : Base64.decode j.x = some (bigEndian 32 k.x)
  y : Base64.decode j.y = some (bigEndian 32 k.y)

end JWK

section
variable {P : Platform} {raw : Bytes} {k : P256.Point}

lemma parseJWK_of_spells {j : JWK} (hj : P.unmarshalJWK raw = some j) (h : j.Spells k) :
    parseJWK P raw = .ok k := by
  have hx : ofBigEndian (bigEndian 32 k.x) = k.x := ofBigEndian_bigEndian k.x_lt
  have hy : ofBigEndian (bigEndian 32 k.y) = k.y := ofBigEndian_bigEndian k.y_lt
  unfold parseJWK
  simp only [hj, h.d, h.kty, h.crv, h.x, h.y, hx, hy, bigEndian_length, k.onCurve, ne_eq,
    not_true_eq_false, or_self, if_false, dite_true]

/-- Exactly the records that spell a point are read as that point. -/
theorem parseJWK_iff :
    parseJWK P raw = .ok k ↔ ∃ j, P.unmarshalJWK raw = some j ∧ j.Spells k := by
  constructor
  · intro h
    unfold parseJWK at h
    split at h
    · cases h
    next j hj =>
      split_ifs at h with hd hname
      rw [not_or] at hname
      split at h
      next x y hx hy =>
        split_ifs at h with hlen hcurve
        rw [not_or] at hlen
        obtain rfl := Except.ok.inj h
        have hbx := bigEndian_ofBigEndian (not_not.mp hlen.1)
        have hby := bigEndian_ofBigEndian (not_not.mp hlen.2)
        exact ⟨j, hj, not_not.mp hd, not_not.mp hname.1, not_not.mp hname.2,
          hx.trans (congrArg some hbx.symm), hy.trans (congrArg some hby.symm)⟩
      · cases h
  · rintro ⟨j, hj, hspells⟩
    exact parseJWK_of_spells hj hspells

end

end AiAuth.Dpop

namespace AiAuth.KeyEncodings
open Library
open Dpop (parseJWK openProof headerOf)

/-- What the JSON library does with keys. `lex` splits the text of an object into its members, and
`repair` makes a string UTF-8. -/
structure JsonKeys (P : Dpop.Platform) (lex : Bytes → Option (List (Bytes × Json)))
    (repair : Bytes → Bytes) (marshal : Oidc.JWK → Bytes) : Prop where
  unmarshalJWK : ∀ raw, P.unmarshalJWK raw = (lex raw).bind (Dpop.JWK.ofMembers P.equalFold)
  marshal : ∀ j, lex (marshal j) = some (j.members repair)
  self : ∀ s, isUtf8 s = true → repair s = s

/-! ## The texts under a thumbprint -/

lemma encode_plain (bs : Bytes) : ∀ c ∈ Base64.encode bs, Quote.Plain c := by
  intro c hc
  obtain ⟨i, hi, rfl⟩ := List.mem_map.mp hc
  have hall : ∀ i : Fin 64, Quote.Plain (Base64.symbol i.val) := by decide
  exact hall ⟨i, Base64.sextets_lt bs i hi⟩

/-- Quoting changes nothing in base64url, so both thumbprints are over one text. -/
theorem jwkText_eq (isPrint : ℕ → Bool) (k : P256.Point) :
    Tokens.jwkText isPrint k = Dpop.jwkText k := by
  have hopen : ascii "\x7b\"crv\":\"P-256\",\"kty\":\"EC\",\"x\":\"" =
      ascii "\x7b\"crv\":\"P-256\",\"kty\":\"EC\",\"x\":" ++ [ch '"'] := by decide
  have hmid : ascii "\",\"y\":\"" = ch '"' :: ascii ",\"y\":" ++ [ch '"'] := by decide
  have hclose : ascii "\"\x7d" = ch '"' :: ascii "\x7d" := by decide
  rw [Tokens.jwkText, Dpop.jwkText, Quote.quote_plain (encode_plain _),
    Quote.quote_plain (encode_plain _), hopen, hmid, hclose]
  simp only [List.append_assoc, List.cons_append, List.nil_append]

lemma thumbprint_eq (isPrint : ℕ → Bool) (C : Crypto) (k : P256.Point) :
    Tokens.thumbprint isPrint C k = Dpop.thumbprint C k := by
  rw [Tokens.thumbprint, Dpop.thumbprint, jwkText_eq]

/-- Where the two texts do not collide, different keys have different thumbprints. -/
lemma thumbprint_ne {C : Crypto} {k k' : P256.Point} (hk : k ≠ k')
    (hcollision : Tokens.NoCollision C [Dpop.jwkText k, Dpop.jwkText k']) :
    Dpop.thumbprint C k ≠ Dpop.thumbprint C k' := by
  intro h
  have hdigest := Base64.encode_injective h
  have htext := hcollision _ List.mem_cons_self _ (List.mem_cons_of_mem _ List.mem_cons_self)
    hdigest
  exact hk (Dpop.jwkText_injective htext)

/-! ## Members in any order -/

/-- The four members of a key, with its coordinates as they are spelled. -/
def keyMembers (x y : Bytes) : List (Bytes × Json) :=
  [(ascii "kty", .string (ascii "EC")), (ascii "crv", .string (ascii "P-256")),
    (ascii "x", .string x), (ascii "y", .string y)]

/-- The members of a key and any others, in any order. The coordinates are base64url texts of
their 32 bytes, and no other member goes into a field. -/
def Spelling (P : Dpop.Platform) (ms : List (Bytes × Json)) (k : P256.Point) : Prop :=
  ∃ x y others, ms.Perm (keyMembers x y ++ others) ∧
    Base64.decode x = some (bigEndian 32 k.x) ∧ Base64.decode y = some (bigEndian 32 k.y) ∧
    ∀ m ∈ others, ∀ name ∈ Dpop.JWK.names, P.equalFold m.1 name = false

lemma eq_of_perm_short {α : Type*} {l l' : List α} (h : l.Perm l') (hlen : l'.length ≤ 1) :
    l = l' := by
  cases l' with
  | nil => exact h.eq_nil
  | cons a rest =>
    have hrest : rest = [] := by
      rw [← List.length_eq_zero_iff]
      simp only [List.length_cons] at hlen
      omega
    subst hrest
    exact List.perm_singleton.mp h

section
variable {P : Dpop.Platform} {lex : Bytes → Option (List (Bytes × Json))}
  {repair : Bytes → Bytes} {marshal : Oidc.JWK → Bytes} {raw x y : Bytes} {k : P256.Point}
  {ms others : List (Bytes × Json)}

/-- All names that are written are in small letters. -/
lemma equalFold_names {s t : Bytes}
    (hs : s ∈ Dpop.JWK.names ++ [ascii "kid", ascii "use", ascii "alg"])
    (ht : t ∈ Dpop.JWK.names) : P.equalFold s t = decide (s = t) := by
  have htable : ∀ s ∈ Dpop.JWK.names ++ [ascii "kid", ascii "use", ascii "alg"],
      ∀ t ∈ Dpop.JWK.names, ((∀ b ∈ s, b < 128) ∧ ∀ b ∈ t, b < 128) ∧
        Url.asciiFold s t = decide (s = t) := by
    decide +kernel
  obtain ⟨⟨hs, ht⟩, hfold⟩ := htable s hs t ht
  rw [P.equalFold_ascii s t hs ht, hfold]

/-- A field holds what was written under its name, if that is one member or none. -/
lemma field_spelling (hms : ms.Perm (keyMembers x y ++ others))
    (hothers : ∀ m ∈ others, ∀ name ∈ Dpop.JWK.names, P.equalFold m.1 name = false) {name : Bytes}
    (hname : name ∈ Dpop.JWK.names) {l : List (Bytes × Json)}
    (hl : ((keyMembers x y).filter fun m => decide (m.1 = name)) = l) (hlen : l.length ≤ 1) :
    Dpop.JWK.field P.equalFold ms name = ((l.filterMap fun m => m.2.asStr).getLast?).getD [] := by
  have hperm := hms.filter fun m => P.equalFold m.1 name
  have hnone : (others.filter fun m => P.equalFold m.1 name) = [] := by
    refine List.filter_eq_nil_iff.mpr fun m hm => ?_
    rw [hothers m hm name hname]
    exact Bool.false_ne_true
  have hnames : ∀ m ∈ keyMembers x y, P.equalFold m.1 name = decide (m.1 = name) := by
    intro m hm
    refine equalFold_names ?_ hname
    simp only [keyMembers, List.mem_cons, List.not_mem_nil, or_false] at hm
    rcases hm with rfl | rfl | rfl | rfl <;> simp [Dpop.JWK.names]
  rw [List.filter_append, hnone, List.append_nil, List.filter_congr hnames, hl] at hperm
  rw [Dpop.JWK.field, eq_of_perm_short hperm hlen]

/-- Order and other members make no difference. -/
lemma ofMembers_spelling (hms : ms.Perm (keyMembers x y ++ others))
    (hothers : ∀ m ∈ others, ∀ name ∈ Dpop.JWK.names, P.equalFold m.1 name = false) :
    Dpop.JWK.ofMembers P.equalFold ms = some ⟨ascii "EC", ascii "P-256", x, y, []⟩ := by
  have hread : (ms.all fun m => Dpop.JWK.fits m.2 ||
      !(Dpop.JWK.names.any fun name => P.equalFold m.1 name)) = true := by
    refine List.all_eq_true.mpr fun m hm => ?_
    rcases List.mem_append.mp (hms.subset hm) with hkey | hother
    · simp only [keyMembers, List.mem_cons, List.not_mem_nil, or_false] at hkey
      rcases hkey with rfl | rfl | rfl | rfl <;> rfl
    · have hnone : (Dpop.JWK.names.any fun name => P.equalFold m.1 name) = false := by
        refine List.any_eq_false.mpr fun name hname => ?_
        rw [hothers m hother name hname]
        exact Bool.false_ne_true
      rw [hnone, Bool.not_false, Bool.or_true]
  have hkty : Dpop.JWK.field P.equalFold ms (ascii "kty") = ascii "EC" :=
    field_spelling hms hothers (by simp [Dpop.JWK.names]) rfl le_rfl
  have hcrv : Dpop.JWK.field P.equalFold ms (ascii "crv") = ascii "P-256" :=
    field_spelling hms hothers (by simp [Dpop.JWK.names]) rfl le_rfl
  have hx : Dpop.JWK.field P.equalFold ms (ascii "x") = x :=
    field_spelling hms hothers (by simp [Dpop.JWK.names]) rfl le_rfl
  have hy : Dpop.JWK.field P.equalFold ms (ascii "y") = y :=
    field_spelling hms hothers (by simp [Dpop.JWK.names]) rfl le_rfl
  have hd : Dpop.JWK.field P.equalFold ms (ascii "d") = [] :=
    field_spelling hms hothers (by simp [Dpop.JWK.names]) rfl (Nat.zero_le 1)
  rw [Dpop.JWK.ofMembers, if_pos hread, hkty, hcrv, hx, hy, hd]

lemma parseJWK_spelling (hJ : JsonKeys P lex repair marshal) (hlex : lex raw = some ms)
    (h : Spelling P ms k) : parseJWK P raw = .ok k := by
  obtain ⟨x, y, others, hms, hx, hy, hothers⟩ := h
  have hread : P.unmarshalJWK raw = some ⟨ascii "EC", ascii "P-256", x, y, []⟩ := by
    rw [hJ.unmarshalJWK, hlex, Option.bind_some, ofMembers_spelling hms hothers]
  exact Dpop.parseJWK_of_spells hread ⟨rfl, rfl, rfl, hx, hy⟩

/-- What the key set publishes for a key spells it. -/
lemma spelling_published (hJ : JsonKeys P lex repair marshal) (kid : Bytes) (k : P256.Point) :
    Spelling P ((Oidc.JWK.of kid k).members repair) k := by
  have htext : ∀ bs : Bytes, repair (Base64.encode bs) = Base64.encode bs := fun bs =>
    hJ.self _ (isUtf8_of_ascii (Base64.encode_lt bs))
  have hkty : repair (ascii "EC") = ascii "EC" := hJ.self _ (by decide)
  have hcrv : repair (ascii "P-256") = ascii "P-256" := hJ.self _ (by decide)
  let others : List (Bytes × Json) := [(ascii "kid", .string (repair kid)),
    (ascii "use", .string (repair (ascii "sig"))), (ascii "alg", .string (repair (ascii "ES256")))]
  refine ⟨Base64.encode (bigEndian 32 k.x), Base64.encode (bigEndian 32 k.y), others, ?_,
    Base64.decode_encode _, Base64.decode_encode _, ?_⟩
  · have hswap : ∀ coords : List (Bytes × Json), (others ++ coords).Perm (coords ++ others) :=
      fun coords => List.perm_append_comm
    simp only [Oidc.JWK.members, Oidc.JWK.of, htext, hkty, hcrv]
    exact ((hswap [_, _]).cons _).cons _
  · intro m hm name hname
    have hm' : m.1 ∈ [ascii "kid", ascii "use", ascii "alg"] := by
      simp only [others, List.mem_cons, List.not_mem_nil, or_false] at hm ⊢
      rcases hm with rfl | rfl | rfl <;> simp
    have hne : ∀ s ∈ [ascii "kid", ascii "use", ascii "alg"], ∀ t ∈ Dpop.JWK.names, s ≠ t := by
      decide +kernel
    rw [equalFold_names (List.mem_append_right _ hm') hname]
    exact decide_eq_false (hne m.1 hm' name hname)

/-- A proof that opens does so under the key that its header carries. -/
lemma key_of_openProof {jwt : Bytes} {header : Dpop.Header} {o : Dpop.Opened}
    (hopen : openProof P jwt = .ok o) (hheader : headerOf P jwt = some header)
    (hk : parseJWK P header.jwk = .ok k) : o.key = k := by
  obtain ⟨header', hheader', -, hkey⟩ := Dpop.headerOf_of_openProof hopen
  obtain rfl : header = header' := Option.some.inj (hheader.symm.trans hheader')
  exact Except.ok.inj (hkey.symm.trans hk)

/-- The thumbprint of an accepted proof is the one of the point, whatever text spells it. -/
lemma thumbprint_of_verify {jwt : Bytes} {header : Dpop.Header} {seen seen' : Dpop.ReplayCache}
    {now admitAt : ℤ} {e : Dpop.Expected} {proof : Dpop.Proof}
    (hheader : headerOf P jwt = some header) (hk : parseJWK P header.jwk = .ok k)
    (hverify : Dpop.verify P seen now admitAt jwt e = (.ok proof, seen')) :
    proof.thumbprint = Dpop.thumbprint P.toCrypto k ∧
      (e.accessToken ≠ [] → e.tokenJKT = Dpop.thumbprint P.toCrypto k) := by
  obtain ⟨o, ho, hthumb⟩ := Dpop.verify_ok hverify
  obtain ⟨hopen, hcheck⟩ := Dpop.inspect_ok ho
  have hkey : o.key = k := key_of_openProof hopen hheader hk
  obtain ⟨-, -, -, -, hbound⟩ := Dpop.checkProof_ok hcheck
  rw [hthumb, hkey]
  exact ⟨rfl, fun htoken => hkey ▸ (hbound htoken).2.symm⟩

end

/-- How the encodings of public keys agree. -/
structure Agree (P : Dpop.Platform) (lex : Bytes → Option (List (Bytes × Json)))
    (marshal : Oidc.JWK → Bytes) (isPrint : ℕ → Bool) : Prop where
  published : ∀ keys : List (Bytes × P256.Point), ∀ e ∈ keys,
    ∃ j ∈ (Oidc.JWKS.new keys).keys, j.kid = e.1 ∧ parseJWK P (marshal j) = .ok e.2
  listed : ∀ keys : List (Bytes × P256.Point), ∀ j ∈ (Oidc.JWKS.new keys).keys,
    ∃ e ∈ keys, j.kid = e.1 ∧ parseJWK P (marshal j) = .ok e.2
  thumbprints : ∀ k, Tokens.thumbprint isPrint P.toCrypto k = Dpop.thumbprint P.toCrypto k
  texts : ∀ k k', k ≠ k' → Dpop.jwkText k ≠ Dpop.jwkText k' ∧
    Tokens.jwkText isPrint k ≠ Tokens.jwkText isPrint k'
  distinct : ∀ k k', k ≠ k' →
    Tokens.NoCollision P.toCrypto [Dpop.jwkText k, Dpop.jwkText k'] →
    Dpop.thumbprint P.toCrypto k ≠ Dpop.thumbprint P.toCrypto k'
  accepted : ∀ raw k, parseJWK P raw = .ok k ↔ ∃ ms j, lex raw = some ms ∧
    Dpop.JWK.ofMembers P.equalFold ms = some j ∧ j.Spells k
  spelled : ∀ raw ms k, lex raw = some ms → Spelling P ms k → parseJWK P raw = .ok k
  opened : ∀ raw k, parseJWK P raw = .ok k → ∀ jwt header o, headerOf P jwt = some header →
    header.jwk = raw → openProof P jwt = .ok o → o.key = k
  verified : ∀ raw k, parseJWK P raw = .ok k → ∀ jwt header, headerOf P jwt = some header →
    header.jwk = raw → ∀ seen seen' now admitAt e proof,
    Dpop.verify P seen now admitAt jwt e = (.ok proof, seen') →
      proof.thumbprint = Dpop.thumbprint P.toCrypto k ∧
      (e.accessToken ≠ [] → e.tokenJKT = Dpop.thumbprint P.toCrypto k)

/-- Publisher, parser and both thumbprints agree on every key, and every accepted text of a key
leads to the same thumbprint. -/
theorem key_encodings_agree {P : Dpop.Platform} {lex : Bytes → Option (List (Bytes × Json))}
    {repair : Bytes → Bytes} {marshal : Oidc.JWK → Bytes} (hJ : JsonKeys P lex repair marshal)
    (isPrint : ℕ → Bool) : Agree P lex marshal isPrint := by
  have hpublished : ∀ kid k, parseJWK P (marshal (Oidc.JWK.of kid k)) = .ok k := fun kid k =>
    parseJWK_spelling hJ (hJ.marshal _) (spelling_published hJ kid k)
  have htexts : ∀ k k', k ≠ k' → Dpop.jwkText k ≠ Dpop.jwkText k' := fun k k' hk h =>
    hk (Dpop.jwkText_injective h)
  constructor
  · intro keys e he
    exact ⟨Oidc.JWK.of e.1 e.2, List.mem_map_of_mem he, rfl, hpublished e.1 e.2⟩
  · intro keys j hj
    obtain ⟨e, he, rfl⟩ := List.mem_map.mp hj
    exact ⟨e, he, rfl, hpublished e.1 e.2⟩
  · exact thumbprint_eq isPrint P.toCrypto
  · intro k k' hk
    rw [jwkText_eq, jwkText_eq]
    exact ⟨htexts k k' hk, htexts k k' hk⟩
  · exact fun k k' hk hcollision => thumbprint_ne hk hcollision
  · intro raw k
    rw [Dpop.parseJWK_iff, hJ.unmarshalJWK]
    simp only [Option.bind_eq_some_iff]
    constructor
    · rintro ⟨j, ⟨ms, hlex, hread⟩, hj⟩
      exact ⟨ms, j, hlex, hread, hj⟩
    · rintro ⟨ms, j, hlex, hread, hj⟩
      exact ⟨j, ⟨ms, hlex, hread⟩, hj⟩
  · exact fun raw ms k hlex h => parseJWK_spelling hJ hlex h
  · rintro raw k hk jwt header o hheader rfl hopen
    exact key_of_openProof hopen hheader hk
  · rintro raw k hk jwt header hheader rfl seen seen' now admitAt e proof hverify
    exact thumbprint_of_verify hheader hk hverify

namespace Short
open Tokens.Worked (write read repair read_write)

/-! ### A key whose first coordinate starts with a zero byte -/

lemma onCurve : P256.isOnCurve
    0x5543894af3d00ed7d740abdbd75c96b06877b787db5f70eea78b90a8d7c00a
    0xbb4c85a3d8ea29efaafa24406912dd84d5b14dc32bf656ef6c6bd58a5d943f92 = true := by
  decide +kernel

def key : P256.Point := ⟨_, _, onCurve⟩

def published : Oidc.JWK := .of (ascii "k1") key

def publishedText : Bytes :=
  ascii "\x7b\"kty\":\"EC\",\"crv\":\"P-256\",\"kid\":\"k1\",\"use\":\"sig\"," ++
    ascii "\"alg\":\"ES256\",\"x\":\"AFVDiUrz0A7X10Cr29dclrBod7eH219w7qeLkKjXwAo\"," ++
    ascii "\"y\":\"u0yFo9jqKe-q-iRAaRLdhNWxTcMr9lbvbGvVil2UP5I\"\x7d"

/-- The same key with its members the other way round and one more, a line break in front of the
first coordinate, and unused bits set in its last symbol. -/
def spelledText : Bytes :=
  ascii "\x7b\"ext\":[1],\"y\":\"u0yFo9jqKe-q-iRAaRLdhNWxTcMr9lbvbGvVil2UP5I\"," ++
    ascii "\"x\":\"\\nAFVDiUrz0A7X10Cr29dclrBod7eH219w7qeLkKjXwAp\"," ++
    ascii "\"crv\":\"P-256\",\"kty\":\"EC\"\x7d"

def spelledX : Bytes := ascii "\nAFVDiUrz0A7X10Cr29dclrBod7eH219w7qeLkKjXwAp"

def spelledY : Bytes := ascii "u0yFo9jqKe-q-iRAaRLdhNWxTcMr9lbvbGvVil2UP5I"

def spelledMembers : List (Bytes × Json) :=
  [(ascii "ext", .array [.number (ascii "1")]), (ascii "y", .string spelledY),
    (ascii "x", .string spelledX), (ascii "crv", .string (ascii "P-256")),
    (ascii "kty", .string (ascii "EC"))]

instance encodableJWK : Encodable Oidc.JWK :=
  .ofLeftInverse (fun j => ((j.kty, j.crv, j.kid), (j.usage, j.alg), j.x, j.y))
    (fun t => ⟨t.1.1, t.1.2.1, t.1.2.2, t.2.1.1, t.2.1.2, t.2.2.1, t.2.2.2⟩) fun _ => rfl

/-- The one key that has a text of its own. -/
def table : List (Oidc.JWK × Bytes) := [(published, publishedText)]

def repaired (j : Oidc.JWK) : Oidc.JWK :=
  ⟨repair j.kty, repair j.crv, repair j.kid, repair j.usage, repair j.alg, repair j.x, repair j.y⟩

def marshal (j : Oidc.JWK) : Bytes := write table (repaired j)

def lex (raw : Bytes) : Option (List (Bytes × Json)) :=
  if raw = spelledText then some spelledMembers else (read table raw).map (Oidc.JWK.members id)

lemma marshal_ne (j : Oidc.JWK) : marshal j ≠ spelledText := by
  unfold marshal write
  split
  next e he =>
    obtain rfl := List.mem_singleton.mp (List.mem_of_find?_eq_some he)
    decide
  · intro h
    have hhead := congrArg List.head? h
    rw [List.replicate_succ, List.head?_cons] at hhead
    exact absurd hhead (by decide)

def proofHeaderText : Bytes :=
  ascii "\x7b\"typ\":\"dpop+jwt\",\"alg\":\"ES256\",\"jwk\":" ++ spelledText ++ ascii "\x7d"

def proofText : Bytes :=
  ascii "\x7b\"jti\":\"p1\",\"htm\":\"GET\",\"htu\":\"https://auth.example/me\"," ++
    ascii "\"iat\":1700000610\x7d"

def proofSigning : Bytes :=
  Jws.signingInput (Base64.encode proofHeaderText) (Base64.encode proofText)

def proofDigest : Bytes :=
  bigEndian 32 0x07627c2c399b3789a4cb6dbfc94dea337421e1fffbacae8c48de523761277433

def proofSig : ℕ × ℕ :=
  (0xf9ebe464147cc102d92324d099d927c1a50e42d57a08a116ffec0a29819d8c65,
    0xed89ad242df8ac93480260ff4ca025d8e0b9906e42b6ac7cbc6ec218844c11e3)

def proof : Bytes := Jws.compact proofSigning (Jws.sigBytes proofSig.1 proofSig.2)

def platform : Dpop.Platform where
  toCrypto := .ofTables
    [(proofSigning, proofDigest),
      (Dpop.jwkText key,
        bigEndian 32 0xed8c5ee9cff76c06ba92268ad46f816668bd11e36c52695c6dd9ebb4b7ae2b81),
      (Dpop.jwkText P256.generator,
        bigEndian 32 0xc71d01700fb0328870f1ab580c939eea9786328764946db04470655c732f9743)]
    [(key, proofDigest, proofSig)]
  unmarshalHeader b :=
    [(proofHeaderText, ⟨ascii "dpop+jwt", ascii "ES256", spelledText⟩)].lookup b
  unmarshalJWK raw := (lex raw).bind (Dpop.JWK.ofMembers Url.asciiFold)
  unmarshalPayload b := [(proofText,
    ⟨ascii "p1", ascii "GET", ascii "https://auth.example/me", 1700000610, []⟩)].lookup b
  toFolding := .ascii

lemma jsonKeys : JsonKeys platform lex repair marshal where
  unmarshalJWK _ := rfl
  marshal j := by
    have hread : read table (marshal j) = some (repaired j) :=
      read_write (by decide) (by decide) _
    rw [lex, if_neg (marshal_ne j), hread]
    rfl
  self _ hs := if_pos hs

def expected : Dpop.Expected := ⟨ascii "GET", ascii "https://auth.example/me", [], []⟩

def header : Dpop.Header := ⟨ascii "dpop+jwt", ascii "ES256", spelledText⟩

/-- The time at which the proof was made. -/
def now : ℤ := Time.ofUnix 1700000610

lemma spelling (hx : Base64.decode spelledX = some (bigEndian 32 key.x))
    (hy : Base64.decode spelledY = some (bigEndian 32 key.y)) :
    Spelling platform spelledMembers key := by
  refine ⟨spelledX, spelledY, [(ascii "ext", .array [.number (ascii "1")])], ?_, hx, hy, ?_⟩
  · exact List.reverse_perm (keyMembers spelledX spelledY ++
      [(ascii "ext", .array [.number (ascii "1")])])
  · intro m hm name hname
    obtain rfl := List.mem_singleton.mp hm
    have hnone : ∀ name ∈ Dpop.JWK.names, Url.asciiFold (ascii "ext") name = false := by decide
    exact hnone name hname

end Short

theorem key_encodings_agree_short :
    (∃ j ∈ (Oidc.JWKS.new [(ascii "k1", Short.key)]).keys,
      parseJWK Short.platform (Short.marshal j) = .ok Short.key) ∧
    parseJWK Short.platform Short.spelledText = .ok Short.key ∧
    Dpop.thumbprint Short.platform.toCrypto Short.key ≠
      Dpop.thumbprint Short.platform.toCrypto P256.generator ∧
    ∃ proof seen, Dpop.verify Short.platform (.new 4) Short.now Short.now Short.proof
        Short.expected = (.ok proof, seen) ∧
      proof.thumbprint = Dpop.thumbprint Short.platform.toCrypto Short.key := by
  have hagree := key_encodings_agree Short.jsonKeys fun _ => true
  have hfacts : Base64.decode Short.spelledX = some (bigEndian 32 Short.key.x) ∧
      Base64.decode Short.spelledY = some (bigEndian 32 Short.key.y) ∧
      Short.key ≠ P256.generator ∧
      (∀ s ∈ [Dpop.jwkText Short.key, Dpop.jwkText P256.generator],
        ∀ t ∈ [Dpop.jwkText Short.key, Dpop.jwkText P256.generator],
        Short.platform.sha256 s = Short.platform.sha256 t → s = t) ∧
      headerOf Short.platform Short.proof = some Short.header ∧
      (Dpop.verify Short.platform (.new 4) Short.now Short.now Short.proof
        Short.expected).1.toOption.isSome := by
    decide +kernel
  obtain ⟨hx, hy, hne, hcollision, hheader, hverified⟩ := hfacts
  have hspelled := hagree.spelled Short.spelledText Short.spelledMembers Short.key rfl
    (Short.spelling hx hy)
  refine ⟨?_, hspelled, hagree.distinct _ _ hne hcollision, ?_⟩
  · obtain ⟨j, hj, -, hk⟩ := hagree.published [(ascii "k1", Short.key)] _ List.mem_cons_self
    exact ⟨j, hj, hk⟩
  · cases hverify : Dpop.verify Short.platform (.new 4) Short.now Short.now Short.proof
      Short.expected with
    | mk res seen =>
      rw [hverify] at hverified
      cases res with
      | error err => cases hverified
      | ok proof =>
        refine ⟨proof, seen, rfl, ?_⟩
        exact (hagree.verified _ _ hspelled _ _ hheader rfl _ _ _ _ _ _ hverify).1

end AiAuth.KeyEncodings
