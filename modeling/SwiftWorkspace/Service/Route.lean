import SwiftWorkspace.Decimal.Reading
import SwiftWorkspace.Text.Utf8

/-!
# The paths of the service

Each path of the service is asked with one method.  A path may be written with
escapes, and slashes and a line break at its end do not count.
-/

namespace SwiftWorkspace

namespace Service

inductive Route where
  | health
  | manifest
  | graph
  | add
  | remove
  /-- A page that describes the service. -/
  | description
  deriving DecidableEq, Repr

namespace Route

def paths : List (Text × Route) :=
  [("/health", .health), ("/manifest", .manifest), ("/graph", .graph),
    ("/dependencies/add", .add), ("/dependencies/remove", .remove), ("/docs", .description),
    ("/docs/oauth2-redirect", .description), ("/redoc", .description),
    ("/openapi.json", .description)].map fun (path, route) => (path.toList, route)

def resolveEscapes : Text → Text
  | '%' :: high :: low :: text =>
      match Decimal.natIn? 16 0 [high, low] with
      | some octet => Char.ofNat octet :: resolveEscapes text
      | none => '%' :: resolveEscapes (high :: low :: text)
  | char :: text => char :: resolveEscapes text
  | [] => []

def dropHost : Text → Text
  | '/' :: '/' :: text => text.dropWhile (· ≠ '/')
  | text => text

def rooted : Text → Text
  | '/' :: text => '/' :: text
  | text => '/' :: text

def dropLineBreak (path : Text) : Text :=
  if path.getLast? = some '\n' then path.dropLast else path

/--
The path that is asked for: without a host, a query or a fragment.  Escapes are
resolved by the sender and once more by the service.
-/
def target (path : Text) : Text :=
  let path := dropHost (path.takeWhile fun char => char ≠ '?' && char ≠ '#')
  resolveEscapes (resolveEscapes (rooted path))

def ofPath? (path : Text) : Option Route :=
  let path := target path
  (paths.lookup (dropLineBreak path)).or
    (paths.lookup (dropLineBreak (Text.trimEnd (· = '/') path)))

def method : Route → Text
  | .health | .description => "GET".toList
  | _ => "POST".toList

end Route

end Service

end SwiftWorkspace
