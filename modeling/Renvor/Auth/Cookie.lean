import Renvor.Auth.Lifetime
import Renvor.Auth.Opaque
import Renvor.Kernel.Text

/-! # The session cookie

What is emitted and what is accepted back. How a header is split into pairs, and
how attributes are rendered, is a library's.
-/

namespace Renvor

/-- The session cookie's name, in the one spelling that is emitted or accepted. -/
def sessionCookieName : String := "__Host-rv_session"

inductive SameSiteChoice
  | lax | strict

structure CookiePolicy where
  sameSite : SameSiteChoice

/-- The pairs of a `Cookie` header, none for one that does not parse, and the
attributes of a cookie of so many seconds. -/
structure CookieLibrary where
  splitParse : String → List (Option (String × String))
  attributes : SameSiteChoice → Int → Bool → String

/-- A `Set-Cookie` value, the attributes apart from the secret. -/
structure SetCookie where
  pair : String
  attributes : String
  deriving DecidableEq

inductive CookieRejection
  | absent | malformed | duplicated | prefixImpersonation

namespace CookieLibrary

variable (library : CookieLibrary)

/-- The value that starts a session. -/
def issue (token : Opaque) (policy : CookiePolicy) (maxAge : Duration) : SetCookie where
  pair := sessionCookieName ++ "=" ++ token.expose
  attributes := library.attributes policy.sameSite maxAge.numSeconds false

/-- The value that expires the cookie in the client. -/
def expire (policy : CookiePolicy) : SetCookie where
  pair := sessionCookieName ++ "="
  attributes := library.attributes policy.sameSite 0 true

/-- The session cookie's values in a list of pairs, and whether another spelling
of its name is there. -/
def found : List (Option (String × String)) → List String × Bool
  | [] => ([], false)
  | none :: rest => found rest
  | some (name, value) :: rest =>
      let (values, impersonated) := found rest
      if name = sessionCookieName then (value :: values, impersonated)
      else if eqIgnoreAsciiCase name sessionCookieName then (values, true)
      else (values, impersonated)

/-- Reads the session identifier out of a `Cookie` header. -/
def read (header : String) : Except CookieRejection Opaque :=
  match found (library.splitParse header) with
  | (_, true) => .error .prefixImpersonation
  | ([], false) => .error .absent
  | ([value], false) => match Opaque.fromWire .session value with
      | some secret => .ok secret
      | none => .error .malformed
  | (_ :: _ :: _, false) => .error .duplicated

end CookieLibrary

end Renvor
