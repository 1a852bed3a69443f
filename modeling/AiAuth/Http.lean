import AiAuth.Library.Json

/-!
# HTTP responses

What a handler hands back. A JSON body is kept as the value it encodes; the text
is a function of that value.
-/
namespace AiAuth
open Library

inductive Body
  | none
  | text (s : Bytes)
  | json (value : Json)

structure Response where
  status : ℕ
  header : List (Bytes × Bytes)
  body : Body

namespace Response

/-- `http.Error`. -/
def error (header : List (Bytes × Bytes)) (msg : Bytes) (status : ℕ) : Response :=
  ⟨status, header, .text msg⟩

/-- `http.Redirect` with status 302; `target` is the redirect target it is given. -/
def found (header : List (Bytes × Bytes)) (target : Bytes) : Response :=
  ⟨302, header ++ [(ascii "Location", target)], .none⟩

/-- The target a response redirects to. -/
def location (r : Response) : Option Bytes := r.header.lookup (ascii "Location")

end Response
end AiAuth
