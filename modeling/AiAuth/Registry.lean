import AiAuth.Library.Dict
import AiAuth.Library.Url

/-!
# Registered clients

Registration is where redirect URIs are checked, so that an authorization request
can be a pure exact match against what is stored.
-/
namespace AiAuth.Oidc
open Library Library.Url

/-- A relying party. Redirect URIs are exact strings. -/
structure Client where
  id : Bytes
  redirectURIs : List Bytes
  deriving DecidableEq

/-- Whole strings are compared, never prefixes. -/
def Client.allowsRedirect (c : Client) (candidate : Bytes) : Bool :=
  c.redirectURIs.any fun registered => registered == candidate

def isLoopback (host : Bytes) : Bool :=
  host == ascii "localhost" || host == ascii "127.0.0.1" || host == ascii "::1" ||
    host == ascii "[::1]"

/-- What a registered redirect may be; the error is the text of the refusal. -/
def validateRedirectURI (raw : Bytes) : Except Bytes Unit :=
  if raw = [] then .error (ascii "empty")
  else if ch '*' ∈ raw ∨ ch '?' ∈ raw then .error (ascii "wildcards are not permitted")
  else match Url.parse raw with
    | none => .error (ascii "unparsable")
    | some u =>
      if u.scheme = [] then .error (ascii "must be absolute")
      else if u.fragment ≠ [] ∨ ch '#' ∈ raw then .error (ascii "must not contain a fragment")
      else if u.host = [] ∧ u.scheme ≠ [] ∧ ¬ (u.scheme ++ ascii "://") <+: raw then
        .error (ascii "custom scheme URIs must use scheme://host form")
      else if u.scheme = ascii "https" then .ok ()
      else if u.scheme = ascii "http" then
        if isLoopback u.hostname then .ok ()
        else .error (ascii "http is only permitted for loopback redirects")
      else .ok ()

inductive RegisterError
  | idRequired
  | noRedirectURI
  | badRedirect (raw reason : Bytes)
  | clientExists
  deriving DecidableEq

/-- The client map. Every client is stored under its own id. -/
structure Registry where
  clients : Dict Bytes Client
  keyed : ∀ id c, clients.get id = some c → c.id = id

namespace Registry

def new : Registry := ⟨Dict.empty, by simp⟩

def lookup (r : Registry) (id : Bytes) : Option Client := r.clients.get id

/-- The first redirect that is not acceptable, with the reason. -/
def firstBadRedirect : List Bytes → Option (Bytes × Bytes)
  | [] => none
  | raw :: rest =>
    match validateRedirectURI raw with
    | .error reason => some (raw, reason)
    | .ok () => firstBadRedirect rest

/-- Validate and store a client. An id that exists is never overwritten. -/
def register (r : Registry) (c : Client) : Except RegisterError Registry :=
  if c.id = [] then .error .idRequired
  else if c.redirectURIs = [] then .error .noRedirectURI
  else match firstBadRedirect c.redirectURIs with
    | some (raw, reason) => .error (.badRedirect raw reason)
    | none =>
      if (r.clients.get c.id).isSome then .error .clientExists
      else .ok
        { clients := r.clients.set c.id ⟨c.id, c.redirectURIs⟩
          keyed := by
            intro id d hd
            rw [Dict.get_set] at hd
            split_ifs at hd with h
            · obtain rfl := Option.some.inj hd
              exact h.symm
            · exact r.keyed id d hd }

theorem lookup_id {r : Registry} {id : Bytes} {c : Client} (h : r.lookup id = some c) :
    c.id = id := r.keyed id c h

end Registry
end AiAuth.Oidc
