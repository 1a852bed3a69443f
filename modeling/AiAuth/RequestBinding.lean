import AiAuth.Library.UrlBase
import AiAuth.SessionRuns

/-!
# Binding a proof to its request

The middleware rebuilds the request URI by appending the decoded path to its own address
and parses the result again. A proof's `htu` is compared with what comes out of that.
-/
namespace AiAuth.Sessions
open Library

/-- A path that the target of some request decodes to. -/
def IsRequestPath (path : Bytes) : Prop :=
  ∃ target u, Url.parseRequestURI target = some u ∧ u.path = path

/-- The `htu` has the scheme and host of the base, up to case, and the path. -/
def Names (P : Dpop.Platform) (htu base path : Bytes) : Prop :=
  ∃ a b, Url.parse htu = some a ∧ Url.parse base = some b ∧ P.equalFold a.scheme b.scheme = true ∧
    P.equalFold a.host b.host = true ∧ a.path = path

/-- The URI check accepts exactly the proofs that name this server and this path. -/
def BindsExactly (P : Dpop.Platform) (a : Authenticator) (r : Request) (raw jkt : Bytes) : Prop :=
  ∀ htu, Dpop.sameURI P htu (a.expected r raw jkt).uri = true ↔ Names P htu a.baseURL r.path

/-- No byte of the path means anything to the URL parser. -/
def Plain (path : Bytes) : Prop :=
  ∀ c ∈ path, Url.isCTL c = false ∧ c ≠ ch '%' ∧ c ≠ ch '?' ∧ c ≠ ch '#'

section binding
variable {P : Dpop.Platform} {a : Authenticator} {b : Url.Base} {r : Request} {raw jkt : Bytes}

lemma sameURI_iff {htu actual : Bytes} :
    Dpop.sameURI P htu actual = true ↔ ∃ u v, Url.parse htu = some u ∧ Url.parse actual = some v ∧
      P.equalFold u.scheme v.scheme = true ∧ P.equalFold u.host v.host = true ∧
      u.path = v.path := by
  unfold Dpop.sameURI
  split
  next u v hu hv => simp [hu, hv, and_assoc]
  next hnone =>
    constructor
    · intro h
      cases h
    · rintro ⟨u, v, hu, hv, -⟩
      exact absurd hv (hnone u v hu)

/-- The base alone parses to its scheme and host. -/
lemma parse_base (b : Url.Base) : ∃ u, Url.parse b.text = some u ∧
    u.scheme = Url.toLower b.scheme ∧ u.host = b.name := by
  obtain ⟨u, hu, hs, hh, -⟩ := Url.Base.parse_text_plain (b := b) (p := []) (.inl rfl) (by simp)
  exact ⟨u, by simpa using hu, hs, hh⟩

lemma names_iff {htu path : Bytes} :
    Names P htu b.text path ↔ ∃ u, Url.parse htu = some u ∧
      P.equalFold u.scheme (Url.toLower b.scheme) = true ∧ P.equalFold u.host b.name = true ∧
      u.path = path := by
  obtain ⟨v, hv, hs, hh⟩ := parse_base b
  constructor
  · rintro ⟨u, v', hu, hv', hscheme, hhost, hpath⟩
    obtain rfl : v = v' := Option.some.inj (hv.symm.trans hv')
    exact ⟨u, hu, hs ▸ hscheme, hh ▸ hhost, hpath⟩
  · rintro ⟨u, hu, hscheme, hhost, hpath⟩
    exact ⟨u, v, hu, hv, hs ▸ hscheme, hh ▸ hhost, hpath⟩

/-- For a plain path the rebuilt URI is the base with that path. -/
lemma bindsExactly_of_plain (hb : a.baseURL = b.text) (hp : Url.IsPath r.path)
    (hplain : Plain r.path) : BindsExactly P a r raw jkt := by
  obtain ⟨v, hv, hs, hh, hpath⟩ := b.parse_text_plain hp hplain
  intro htu
  rw [hb, names_iff, sameURI_iff, Authenticator.expected, hb]
  constructor
  · rintro ⟨u, v', hu, hv', hscheme, hhost, hsame⟩
    obtain rfl : v = v' := Option.some.inj (hv.symm.trans hv')
    exact ⟨u, hu, hs ▸ hscheme, hh ▸ hhost, hsame.trans hpath⟩
  · rintro ⟨u, hu, hscheme, hhost, hsame⟩
    exact ⟨u, v, hu, hv, hs ▸ hscheme, hh ▸ hhost, hsame.trans hpath.symm⟩

/-- If every correctly made proof is accepted, the path is plain: the proof that spells the
path in percent-encoding tells. -/
lemma plain_of_bindsExactly (hb : a.baseURL = b.text) (hp : Url.IsPath r.path)
    (h : BindsExactly P a r raw jkt) : Plain r.path := by
  cases hpath : r.path with
  | nil => simp [Plain]
  | cons c p =>
    obtain rfl : c = ch '/' := by simpa [Url.IsPath, hpath] using hp
    obtain ⟨u, hu, hs, hh, hup⟩ := b.parse_text_pct p
    have hnames : Names P (b.text ++ ch '/' :: p.flatMap Url.pct) a.baseURL r.path := by
      rw [hb, names_iff]
      exact ⟨u, hu, hs ▸ P.equalFold_refl _, hh ▸ P.equalFold_refl _, hup.trans hpath.symm⟩
    obtain ⟨u', v, hu', hv, -, -, hsame⟩ := sameURI_iff.mp ((h _).mpr hnames)
    obtain rfl : u = u' := Option.some.inj (hu.symm.trans hu')
    rw [Authenticator.expected, hb] at hv
    rw [← hpath]
    exact Url.Base.plain_of_parse_text hp hv (hsame.symm.trans (hup.trans hpath.symm))

/-- Nothing under a base has the path of `OPTIONS *`. -/
lemma not_names_star {htu : Bytes} : ¬ Names P htu b.text (ascii "*") := by
  rw [names_iff]
  rintro ⟨u, hu, hscheme, -, hpath⟩
  have hnil : u.scheme = [] := by
    by_contra hne
    exact Url.not_isPath_star (hpath ▸ Url.parse_path_of_scheme hu hne)
  rw [hnil] at hscheme
  exact b.lower_ne_nil (P.equalFold_nil _ hscheme)

lemma bindsExactly_star (hb : a.baseURL = b.text) (hstar : r.path = ascii "*") :
    BindsExactly P a r raw jkt ↔ Url.parse (a.baseURL ++ ascii "*") = none := by
  have huri : (a.expected r raw jkt).uri = a.baseURL ++ ascii "*" := by
    rw [Authenticator.expected, hstar]
  constructor
  · intro h
    by_contra hne
    obtain ⟨v, hv⟩ := Option.ne_none_iff_exists'.mp hne
    have hsame : Dpop.sameURI P (a.baseURL ++ ascii "*") (a.expected r raw jkt).uri = true :=
      sameURI_iff.mpr ⟨v, v, hv, huri ▸ hv, P.equalFold_refl _, P.equalFold_refl _, rfl⟩
    have hnames := (h _).mp hsame
    rw [hb, hstar] at hnames
    exact not_names_star hnames
  · intro h htu
    rw [hb, hstar]
    refine ⟨fun hs => ?_, fun hn => absurd hn not_names_star⟩
    obtain ⟨u, v, -, hv, -⟩ := sameURI_iff.mp hs
    rw [huri, h] at hv
    cases hv

end binding

/-- The URI check is exact for a request path if and only if the path has no control byte,
no percent sign, no question mark and no hash sign, and, for `OPTIONS *`, the base with a
star behind it does not parse. -/
theorem uri_check_exact_iff {P : Dpop.Platform} {a : Authenticator} {b : Url.Base} {r : Request}
    (raw jkt : Bytes) (hb : a.baseURL = b.text) (hr : IsRequestPath r.path) :
    BindsExactly P a r raw jkt ↔
      Plain r.path ∧ (r.path = ascii "*" → Url.parse (a.baseURL ++ ascii "*") = none) := by
  obtain ⟨target, u, hu, hpath⟩ := hr
  rcases Url.parseRequestURI_path hu with hstar | hp
  · rw [hpath] at hstar
    have hplain : Plain r.path := by
      rw [hstar, Plain]
      decide +kernel
    rw [bindsExactly_star hb hstar]
    exact ⟨fun h => ⟨hplain, fun _ => h⟩, fun h => h.2 hstar⟩
  · rw [hpath] at hp
    have hne : r.path ≠ ascii "*" := fun hstar => Url.not_isPath_star (hstar ▸ hp)
    exact ⟨fun h => ⟨plain_of_bindsExactly hb hp h, fun hs => absurd hs hne⟩,
      fun h => bindsExactly_of_plain hb hp h.1⟩

namespace Worked

def base : Url.Base where
  scheme := ascii "https"
  host := ascii "auth.example"
  name := ascii "auth.example"
  scheme_valid := by decide
  host_plain := by decide +kernel
  host_parses := by decide +kernel

/-- The target `/a%3Fb`, whose path holds a question mark. -/
def marked : Request := { request with path := ascii "/a?b" }

end Worked

/-- A proof made for `/a%3Fb` is refused there, since the decoded path is taken for a path
and a query. -/
theorem uri_check_inexact :
    ¬ ∀ (P : Dpop.Platform) (a : Authenticator) (b : Url.Base) (r : Request) (raw jkt : Bytes),
      a.baseURL = b.text → IsRequestPath r.path → BindsExactly P a r raw jkt := by
  intro h
  have hpath :
      (Url.parseRequestURI (ascii "/a%3Fb")).map Url.URL.path = some Worked.marked.path := by
    decide +kernel
  obtain ⟨target, ht, hp⟩ := Option.map_eq_some_iff.mp hpath
  have hexact := h Worked.platform Worked.service.auth Worked.base Worked.marked [] []
    (by decide +kernel) ⟨_, target, ht, hp⟩
  have hmade : (Url.parse (ascii "https://auth.example/a%3Fb")).map
      (fun u => (u.scheme, u.host, u.path)) =
      some (Url.toLower Worked.base.scheme, Worked.base.name, ascii "/a?b") := by decide +kernel
  obtain ⟨u, hu, hfields⟩ := Option.map_eq_some_iff.mp hmade
  simp only [Prod.mk.injEq] at hfields
  have hnames : Names Worked.platform (ascii "https://auth.example/a%3Fb") Worked.base.text
      Worked.marked.path := by
    refine names_iff.mpr ⟨u, hu, ?_, ?_, hfields.2.2⟩
    · rw [hfields.1]
      exact Worked.platform.equalFold_refl _
    · rw [hfields.2.1]
      exact Worked.platform.equalFold_refl _
  have haccepted := (hexact (ascii "https://auth.example/a%3Fb")).mpr hnames
  revert haccepted
  decide +kernel

/-- For the path of the worked session the check is exact. -/
theorem uri_check_exact_worked :
    BindsExactly Worked.platform Worked.service.auth Worked.request [] [] := by
  have hpath : (Url.parseRequestURI (ascii "/me")).map Url.URL.path = some Worked.request.path := by
    decide +kernel
  obtain ⟨target, ht, hp⟩ := Option.map_eq_some_iff.mp hpath
  have hplain : Plain Worked.request.path := by
    unfold Plain
    decide +kernel
  have hbase : Worked.service.auth.baseURL = Worked.base.text := by decide +kernel
  exact (uri_check_exact_iff [] [] hbase ⟨_, target, ht, hp⟩).mpr
    ⟨hplain, fun hstar => absurd hstar (by decide +kernel)⟩

end AiAuth.Sessions
