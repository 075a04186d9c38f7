/-
Azsl.Uri.Basic — resource identifiers and their written form.

The parts of a `Uri` are kept in their normal form: the scheme in lower case, the path without
dot segments, everything percent-encoded where it has to be. A `Uri` whose path does not start
with a slash and that has no authority is opaque: nothing can be resolved against it.
-/
import Azsl.Text.Location

namespace Azsl

/-- What stands between `//` and the path. -/
structure Authority where
  /-- User name and password with the `@` behind them, or nothing. -/
  userinfo : String
  host : String
  /-- The port, unless it is the one that the scheme stands for. -/
  port : Option Nat
deriving DecidableEq, Repr

namespace Authority

/-- No host at all, as in the identifiers of local files. -/
def empty : Authority := ⟨"", "", none⟩

/-- The written form. -/
def render (authority : Authority) : String :=
  authority.userinfo ++ authority.host ++
    (match authority.port with
      | some port => ":" ++ toString port
      | none => "")

end Authority

/-- A resource identifier. -/
structure Uri where
  scheme : String
  authority : Option Authority
  path : String
  query : Option String
  fragment : Option String
deriving DecidableEq, Repr

/-- Why a text is not a resource identifier. -/
inductive UriError where
  | emptyHost
  | invalidDomain
  | invalidPort
  | invalidIpv4
  | invalidIpv6
  | invalidHostCharacter
  | relativeWithoutBase
  | relativeWithOpaqueBase
deriving DecidableEq, Repr

namespace UriError

/-- The wording of an error. -/
def message : UriError → String
  | emptyHost => "empty host"
  | invalidDomain => "invalid international domain name"
  | invalidPort => "invalid port number"
  | invalidIpv4 => "invalid IPv4 address"
  | invalidIpv6 => "invalid IPv6 address"
  | invalidHostCharacter => "invalid domain character"
  | relativeWithoutBase => "relative URL without a base"
  | relativeWithOpaqueBase => "relative URL with a cannot-be-a-base base"

end UriError

namespace Uri

/-- Whether nothing can be resolved against the identifier. -/
def isOpaque (uri : Uri) : Bool :=
  uri.authority.isNone && !uri.path.toList.head?.any (· == '/')

/-- The written form. Without an authority, `/.` keeps a path that starts with two slashes
from being read as one. -/
def render (uri : Uri) : String :=
  uri.scheme ++ ":" ++
    (match uri.authority with
      | some authority => "//" ++ authority.render
      | none => if ['/', '/'].isPrefixOf uri.path.toList then "/." else "") ++
    uri.path ++
    (match uri.query with
      | some query => "?" ++ query
      | none => "") ++
    (match uri.fragment with
      | some fragment => "#" ++ fragment
      | none => "")

/-- Identifiers are ordered by their written forms. -/
def before (a b : Uri) : Bool :=
  decide (a.render < b.render)

end Uri

end Azsl
