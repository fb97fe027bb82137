/-
# Requests

The details of the request that a template is expanded for.

Key definitions: `Request`, `Request.ofUrl`.
-/
import Stencil.Number
import Stencil.Url

namespace Stencil

structure Request where
  url : String
  method : String
  headers : List (String × String)
  timestamp : Number
  domain : String
  path : String
  protocol : String
  query : List (String × String)
  referrer : Option String
  userAgent : Option String
  tabId : Option Int

namespace Request

/-- The value of a header, whatever the letter case of its name; of several the last one. -/
def header? (headers : List (String × String)) (name : String) : Option String :=
  (headers.reverse.find? fun (n, _) => Text.lower n == name).map Prod.snd

/-- The request to a URL. A header that is given twice has its last value. -/
def ofUrl (url method : String) (headers : List (String × String)) (tabId : Option Int)
    (timestamp : Number) : Except Url.Fault Request :=
  let headers := Url.assignAll headers
  match Url.split url with
  | .error fault => .error fault
  | .ok parts => .ok {
      url
      method := Text.upper method
      headers
      timestamp
      domain := parts.host
      path := if parts.path.isEmpty then "/" else parts.path
      protocol := parts.scheme
      query := parts.query
      referrer := header? headers "referer"
      userAgent := header? headers "user-agent"
      tabId }

end Request
end Stencil
