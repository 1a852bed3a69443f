import AiAuth.Library.Runs
import AiAuth.Library.UrlShape
import AiAuth.Registry

/-!
# What the registry may hold

Every call of `register` either adds a client whose redirects all pass the checks, or changes
nothing. The checks let one kind of redirect through that they are meant to keep out: an
authority without a host.
-/
namespace AiAuth.Oidc
open Library Library.Url

/-! ## Redirects -/

/-- A text that begins with a scheme, in any case, and `://`. -/
def SchemeForm (raw scheme : Bytes) : Prop :=
  ∃ s rest, raw = s ++ ascii "://" ++ rest ∧ toLower s = scheme

/-- What a registered redirect is meant to be: an absolute URI with a host, free of wildcards
and fragments, under a permitted scheme. -/
structure Acceptable (raw : Bytes) (u : URL) : Prop where
  parses : Url.parse raw = some u
  absolute : u.scheme ≠ []
  host : u.host ≠ []
  plain : ch '*' ∉ raw ∧ ch '?' ∉ raw ∧ ch '#' ∉ raw
  scheme : u.scheme = ascii "https" ∨ (u.scheme = ascii "http" ∧ isLoopback u.hostname = true) ∨
    (u.scheme ≠ ascii "https" ∧ u.scheme ≠ ascii "http" ∧ SchemeForm raw u.scheme)

/-- The text between `scheme://`, or the user information, and the next slash is not empty. -/
def namesHost (raw : Bytes) : Bool :=
  hostText (((cut (ch ':') raw).2.drop 2).takeWhile (· != ch '/')) ≠ []

/-- Every check a registered redirect has passed. -/
lemma validateRedirectURI_ok {raw : Bytes} (h : validateRedirectURI raw = .ok ()) :
    ∃ u, Url.parse raw = some u ∧ ch '*' ∉ raw ∧ ch '?' ∉ raw ∧ ch '#' ∉ raw ∧ u.scheme ≠ [] ∧
      (u.host = [] → (u.scheme ++ ascii "://") <+: raw) ∧
      (u.scheme = ascii "http" → isLoopback u.hostname = true) := by
  unfold validateRedirectURI at h
  split_ifs at h with hempty hwild
  obtain ⟨hstar, hquery⟩ := not_or.mp hwild
  split at h
  · cases h
  next u hu =>
    split at h
    · cases h
    next hscheme =>
      split at h
      · cases h
      next hfrag =>
        split at h
        · cases h
        next hform =>
          have hslashes : u.host = [] → (u.scheme ++ ascii "://") <+: raw := by
            intro hhost
            by_contra hno
            exact hform ⟨hhost, hscheme, hno⟩
          refine ⟨u, hu, hstar, hquery, (not_or.mp hfrag).2, hscheme, hslashes, fun heq => ?_⟩
          by_contra hloop
          have hhttps : u.scheme ≠ ascii "https" := by
            rw [heq]
            decide
          rw [if_neg hhttps, if_pos heq, if_neg hloop] at h
          cases h

/-- A redirect that is accepted is a scheme, an authority and a path. -/
lemma accepted_url {raw : Bytes} (h : validateRedirectURI raw = .ok ()) :
    ∃ u s tail user host, Url.parse raw = some u ∧ validScheme s = true ∧
      raw = s ++ ch ':' :: (ascii "//" ++ tail) ∧
      parseAuthority (tail.takeWhile (· != ch '/')) = some (user, host) ∧
      { URL.empty with scheme := toLower s, user := user, host := host }.setPath
        (tail.dropWhile (· != ch '/')) = some u := by
  obtain ⟨u, hu, -, hquery, hhash, hscheme, hform, -⟩ := validateRedirectURI_ok h
  obtain ⟨s, rest, hs, rfl, -, hlower, hshape⟩ := parse_shape hu hscheme hquery hhash
  have hslashes : ∀ p, (u.scheme ++ ascii "://") <+: s ++ ch ':' :: p → ascii "//" <+: p := by
    intro p hp
    obtain ⟨q, hq⟩ := hp
    have hmark : ascii "://" = ch ':' :: ascii "//" := by decide
    have hlen : u.scheme.length = s.length := by rw [hlower, toLower, List.length_map]
    rw [hmark, List.append_assoc, List.cons_append] at hq
    exact ⟨q, (List.cons.inj (List.append_inj hq hlen).2).2⟩
  cases hshape with
  | opaquePart hhead heq =>
    have hhost : u.host = [] := by rw [heq]; rfl
    obtain ⟨q, rfl⟩ := hslashes _ (hform hhost)
    exact absurd rfl hhead
  | authority hrest hauth hset => exact ⟨u, s, _, _, _, hu, hs, by rw [hrest], hauth, hset⟩
  | rooted hno hset =>
    obtain ⟨-, -, hhost⟩ := setPath_path hset
    exact absurd (hslashes _ (hform hhost)) hno

/-- Its authority may be empty. -/
lemma accepted_shape {raw : Bytes} (h : validateRedirectURI raw = .ok ()) :
    ∃ u s tail user, Url.parse raw = some u ∧ validScheme s = true ∧
      raw = s ++ ch ':' :: (ascii "//" ++ tail) ∧ u.scheme = toLower s ∧
      parseAuthority (tail.takeWhile (· != ch '/')) = some (user, u.host) := by
  obtain ⟨u, s, tail, user, host, hu, hs, hraw, hauth, hset⟩ := accepted_url h
  obtain ⟨-, hscheme, hhost⟩ := setPath_path hset
  exact ⟨u, s, tail, user, hu, hs, hraw, hscheme, by rw [hauth, hhost]⟩

/-- An accepted redirect is what it is meant to be exactly when it names a host. -/
theorem acceptable_iff {raw : Bytes} (h : validateRedirectURI raw = .ok ()) :
    (∃ u, Acceptable raw u) ↔ namesHost raw = true := by
  obtain ⟨u, hu, hstar, hquery, hhash, hscheme, -, hhttp⟩ := validateRedirectURI_ok h
  obtain ⟨u', s, tail, user, hu', hs, hraw, hlower, hauth⟩ := accepted_shape h
  obtain rfl := Option.some.inj (hu.symm.trans hu')
  have hhost : u.host = [] ↔ ¬ namesHost raw = true := by
    have hcut : (cut (ch ':') raw).2 = ascii "//" ++ tail := by
      rw [hraw, cut_append (colon_notMem_scheme hs)]
    have htail : (ascii "//" ++ tail).drop 2 = tail := rfl
    rw [parseHost_eq_nil (parseAuthority_host hauth), namesHost, hcut, htail]
    simp
  constructor
  · rintro ⟨v, hv⟩
    obtain rfl := Option.some.inj (hv.parses.symm.trans hu)
    exact not_not.mp fun hno => hv.host (hhost.mpr hno)
  · intro hnames
    refine ⟨u, hu, hscheme, fun hnil => hhost.mp hnil hnames, ⟨hstar, hquery, hhash⟩, ?_⟩
    by_cases hhttps : u.scheme = ascii "https"
    · exact .inl hhttps
    by_cases heq : u.scheme = ascii "http"
    · exact .inr (.inl ⟨heq, hhttp heq⟩)
    · refine .inr (.inr ⟨hhttps, heq, s, tail, ?_, hlower.symm⟩)
      have hmark : ascii "://" = ch ':' :: ascii "//" := by decide
      rw [hraw, hmark, List.append_assoc, List.cons_append]

/-! ## Runs -/

namespace Registry

/-- One call: the error, and the registry after it. -/
def call (r : Registry) (c : Client) : Except RegisterError Unit × Registry :=
  match r.register c with
  | .error e => (.error e, r)
  | .ok r' => (.ok (), r')

/-- A call with the answer it gets. -/
def step (r : Registry) (e : Client × Except RegisterError Unit) : Option Registry :=
  if (r.call e.1).1 = e.2 then some (r.call e.1).2 else none

lemma firstBadRedirect_none {uris : List Bytes} (h : firstBadRedirect uris = none) :
    ∀ raw ∈ uris, validateRedirectURI raw = .ok () := by
  induction uris with
  | nil => simp
  | cons raw uris ih =>
    rw [firstBadRedirect] at h
    split at h
    · cases h
    next hok =>
      intro raw' hmem
      rcases List.mem_cons.mp hmem with rfl | hmem
      · exact hok
      · exact ih h raw' hmem

/-- A client that is added is new, and its redirects all pass. -/
lemma register_ok {r r' : Registry} {c : Client} (h : r.register c = .ok r') :
    r.lookup c.id = none ∧ (∀ raw ∈ c.redirectURIs, validateRedirectURI raw = .ok ()) ∧
      ∀ id, r'.lookup id = if id = c.id then some c else r.lookup id := by
  unfold register at h
  by_cases hid : c.id = []
  · rw [if_pos hid] at h
    cases h
  by_cases huris : c.redirectURIs = []
  · rw [if_neg hid, if_pos huris] at h
    cases h
  rw [if_neg hid, if_neg huris] at h
  cases hbad : firstBadRedirect c.redirectURIs with
  | some found =>
    rw [hbad] at h
    cases h
  | none =>
    rw [hbad] at h
    by_cases hexists : (r.clients.get c.id).isSome = true
    · rw [if_pos hexists] at h
      cases h
    · rw [if_neg hexists] at h
      obtain rfl := Except.ok.inj h
      exact ⟨Option.not_isSome_iff_eq_none.mp hexists, firstBadRedirect_none hbad,
        fun id => Dict.get_set _ _ _ _⟩

/-- What a call does: it refuses and changes nothing, or it adds a client under a new id whose
redirects all pass. -/
lemma step_cases {r r' : Registry} {c : Client} {res : Except RegisterError Unit}
    (h : r.step (c, res) = some r') :
    ((∃ e, res = .error e) ∧ r' = r) ∨
    (res = .ok () ∧ r.lookup c.id = none ∧
      (∀ raw ∈ c.redirectURIs, validateRedirectURI raw = .ok ()) ∧
      ∀ id, r'.lookup id = if id = c.id then some c else r.lookup id) := by
  unfold step call at h
  cases hreg : r.register c with
  | error e =>
    rw [hreg] at h
    split_ifs at h with hres
    exact .inl ⟨⟨e, hres.symm⟩, (Option.some.inj h).symm⟩
  | ok s =>
    rw [hreg] at h
    split_ifs at h with hres
    obtain rfl := Option.some.inj h
    exact .inr ⟨hres.symm, register_ok hreg⟩

/-- Every redirect of the call that passes the checks names a host. -/
def NamesHosts (c : Client) : Prop :=
  ∀ raw ∈ c.redirectURIs, validateRedirectURI raw = .ok () → namesHost raw = true

instance (c : Client) : Decidable (NamesHosts c) :=
  inferInstanceAs (Decidable (∀ raw ∈ c.redirectURIs, _ → _))

variable {r r' : Registry} {tr : List (Client × Except RegisterError Unit)} {c : Client}
  {id : Bytes}

/-- A client that is stored stays as it is. -/
lemma kept_run (hr : Run (StepOf step) r tr r') (h : r.lookup id = some c) :
    r'.lookup id = some c := by
  refine hr.invariant (fun _ r => r.lookup id = some c) h ?_
  rintro tr r e r' - hc hs
  rcases step_cases hs with ⟨-, rfl⟩ | ⟨-, hnew, -, hget⟩
  · exact hc
  · have hne : id ≠ e.1.id := by
      rintro rfl
      rw [hnew] at hc
      cases hc
    rw [hget, if_neg hne, hc]

/-- As long as the redirects name hosts, every stored redirect is what it is meant to be. -/
lemma acceptable_run
    (hr : Run (Guarded (fun _ e => NamesHosts e.1) (StepOf step)) .new tr r) :
    ∀ id c, r.lookup id = some c → ∀ raw ∈ c.redirectURIs, ∃ u, Acceptable raw u := by
  refine hr.invariant (fun _ r => ∀ id c, r.lookup id = some c →
    ∀ raw ∈ c.redirectURIs, ∃ u, Acceptable raw u) (fun id c hc => by cases hc) ?_
  rintro tr r ⟨c, res⟩ r' - ih ⟨hnames, hs⟩ id d hd
  rcases step_cases hs with ⟨-, rfl⟩ | ⟨-, -, hvalid, hget⟩
  · exact ih id d hd
  · rw [hget] at hd
    split_ifs at hd with hid
    · obtain rfl := Option.some.inj hd
      exact fun raw hraw => (acceptable_iff (hvalid raw hraw)).mpr
        (hnames raw hraw (hvalid raw hraw))
    · exact ih id d hd

/-- A call that succeeds is the first one under its id, and the last. -/
lemma registered_once {pre post : List (Client × Except RegisterError Unit)}
    (hr : Run (StepOf step) .new (pre ++ (c, .ok ()) :: post) r) :
    r.lookup c.id = some c ∧ ∀ c', (c', .ok ()) ∈ pre → c'.id ≠ c.id := by
  obtain ⟨s, s', hpre, hs, hpost⟩ := hr.at_label pre post rfl
  rcases step_cases hs with ⟨⟨e, he⟩, -⟩ | ⟨-, hnew, -, hget⟩
  · cases he
  · refine ⟨kept_run hpost (by rw [hget, if_pos rfl]), fun c' hc' heq => ?_⟩
    obtain ⟨before, after, rfl⟩ := List.append_of_mem hc'
    obtain ⟨t, t', -, hs', hafter⟩ := hpre.at_label before after rfl
    rcases step_cases hs' with ⟨⟨e, he⟩, -⟩ | ⟨-, -, -, hget'⟩
    · cases he
    · have hstill : s.lookup c'.id = some c' := kept_run hafter (by rw [hget', if_pos rfl])
      rw [heq, hnew] at hstill
      cases hstill

/-- A call that is refused leaves the registry as it is. -/
lemma refused_call {e : RegisterError} {s s' : Registry} (h : step s (c, .error e) = some s') :
    s.call c = (.error e, s) ∧ s' = s := by
  unfold step at h
  split_ifs at h with hres
  have hsame : s.call c = (.error e, s) := by
    unfold call at hres ⊢
    cases hreg : s.register c with
    | error e' =>
      rw [hreg] at hres
      rw [Except.error.inj hres]
    | ok r' =>
      rw [hreg] at hres
      cases hres
  exact ⟨hsame, by simpa [hsame] using h.symm⟩

/-- As long as the redirects name hosts, every stored redirect is what it is meant to be, a client
keeps the redirects it was first registered with, and a refused call changes nothing. -/
theorem registry_run
    (hr : Run (Guarded (fun _ e => NamesHosts e.1) (StepOf step)) .new tr r) :
    (∀ id c, r.lookup id = some c → ∀ raw ∈ c.redirectURIs, ∃ u, Acceptable raw u) ∧
    (∀ pre c post, tr = pre ++ (c, .ok ()) :: post → r.lookup c.id = some c ∧
      ∀ c', (c', .ok ()) ∈ pre → c'.id ≠ c.id) ∧
    (∀ pre c e post, tr = pre ++ (c, .error e) :: post → ∃ s, Run (StepOf step) .new pre s ∧
      (s.call c) = (.error e, s) ∧ Run (StepOf step) s post r) := by
  refine ⟨acceptable_run hr, ?_, ?_⟩
  · rintro pre c post rfl
    exact registered_once hr.of_guarded
  · rintro pre c e post rfl
    obtain ⟨s, s', hpre, hs, hpost⟩ := hr.of_guarded.at_label pre post rfl
    obtain ⟨hsame, rfl⟩ := refused_call hs
    exact ⟨s', hpre, hsame, hpost⟩

namespace Worked

def app : Client := ⟨ascii "app", [ascii "https://app.example/cb", ascii "MyApp://open"]⟩

/-- The same client with other redirects. -/
def hijack : Client := ⟨ascii "app", [ascii "https://evil.example/cb"]⟩

/-- A redirect with an authority that names no host. -/
def hostless : Client := ⟨ascii "native", [ascii "https:///cb"]⟩

def calls : List (Client × Except RegisterError Unit) :=
  [(app, .ok ()), (hijack, .error .clientExists)]

end Worked

theorem registry_run_worked : ∃ r, Run (StepOf step) .new Worked.calls r ∧
    r.lookup (ascii "app") = some Worked.app := by
  obtain ⟨r, hr⟩ := Run.exists_of_foldlM_guarded (fun _ e => NamesHosts e.1) step .new Worked.calls
    (by decide +kernel)
  exact ⟨r, hr.of_guarded, ((registry_run hr).2.1 [] Worked.app _ rfl).1⟩

/-- A redirect without a host is stored. -/
theorem hostless_stored : ∃ r, Run (StepOf step) .new [(Worked.hostless, .ok ())] r ∧
    r.lookup (ascii "native") = some Worked.hostless ∧
    ascii "https:///cb" ∈ Worked.hostless.redirectURIs ∧
    ¬ ∃ u, Acceptable (ascii "https:///cb") u := by
  obtain ⟨r, hr, hget⟩ := Run.exists_of_foldlM_any step
    (fun r => decide (r.lookup (ascii "native") = some Worked.hostless)) .new
    [(Worked.hostless, .ok ())] (by decide +kernel)
  refine ⟨r, hr, of_decide_eq_true hget, by simp [Worked.hostless], ?_⟩
  rw [acceptable_iff (by decide +kernel)]
  decide +kernel

end Registry
end AiAuth.Oidc
