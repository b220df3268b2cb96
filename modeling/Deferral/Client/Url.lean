import Deferral.Http.Form
import Deferral.Http.Route

/-!
The addresses that the client calls. Blanks around an address and line breaks in it mean nothing, a
backslash is a slash, dots in a path are resolved, and what cannot stand for itself is escaped.
-/

namespace Deferral.Client

structure Url where
  authority : String
  path : List UInt8
  query : Option (List UInt8)
  deriving DecidableEq, Repr

namespace Url

def isBlank (c : Char) : Bool := c.toNat ≤ 0x20

def isIgnored (c : Char) : Bool := c = '\t' || c = '\n' || c = '\r'

def clean (s : String) : List Char :=
  (((s.toList.dropWhile isBlank).reverse.dropWhile isBlank).reverse).filter (!isIgnored ·)

def isSlash (c : Char) : Bool := c = '/' || c = '\\'

/-- The only scheme that the client speaks, in any case, and what follows its colon. -/
def afterScheme? : List Char → Option (List Char)
  | h :: t :: t' :: p :: ':' :: rest =>
    if [h, t, t', p].map Char.toLower = ['h', 't', 't', 'p'] then some rest else none
  | _ => none

def escapedInPath (byte : UInt8) : Bool :=
  byte ≤ 0x20 || byte ≥ 0x7F || byte = 0x22 || byte = 0x23 || byte = 0x3C || byte = 0x3E ||
    byte = 0x3F || byte = 0x60 || byte = 0x7B || byte = 0x7D

def escapedInQuery (byte : UInt8) : Bool :=
  byte ≤ 0x20 || byte ≥ 0x7F || byte = 0x22 || byte = 0x23 || byte = 0x27 || byte = 0x3C || byte = 0x3E

def dot (segment : List Char) : Bool :=
  let s := segment.map Char.toLower
  s = ['.'] || s = ['%', '2', 'e']

def twoDots (segment : List Char) : Bool :=
  let s := segment.map Char.toLower
  s = ['.', '.'] || s = ['.', '%', '2', 'e'] || s = ['%', '2', 'e', '.'] ||
    s = ['%', '2', 'e', '%', '2', 'e']

/-- Resolves dots in the segments that follow some others. A dot at the end leaves an empty segment. -/
def resolveDots (before : List (List Char)) : List (List Char) → List (List Char)
  | [] => before
  | [last] =>
    if twoDots last then before.dropLast ++ [[]]
    else if dot last then before ++ [[]]
    else before ++ [last]
  | segment :: rest =>
    if twoDots segment then resolveDots before.dropLast rest
    else if dot segment then resolveDots before rest
    else resolveDots (before ++ [segment]) rest

def encodeSegment (segment : List Char) : List UInt8 :=
  Http.Percent.encode escapedInPath (Text.toBytes (String.ofList segment))

def encodePath (path : List Char) : List UInt8 :=
  let path := path.map fun c => if isSlash c then '/' else c
  let segments := resolveDots [] ((Text.splitOn '/' path).drop 1)
  [Http.slash] ++ [Http.slash].intercalate (segments.map encodeSegment)

def upTo (ends : Char → Bool) (cs : List Char) : List Char × List Char :=
  (cs.takeWhile (!ends ·), cs.dropWhile (!ends ·))

/-- Reads an address; `none` if it is no address that the client can call. -/
def parse? (s : String) : Option Url := do
  let rest := (← afterScheme? (clean s)).dropWhile isSlash
  let (authority, rest) := upTo (fun c => isSlash c || c = '?' || c = '#') rest
  let host := (authority.reverse.takeWhile (· != '@')).reverse
  if host.isEmpty then none
  else
    let (path, rest) := upTo (fun c => c = '?' || c = '#') rest
    let query := match rest with
      | '?' :: rest =>
        some (Http.Percent.encode escapedInQuery (Text.toBytes (String.ofList (Text.cut '#' rest).1)))
      | _ => none
    some { authority := String.ofList host, path := encodePath path, query }

def addQuery (url : Url) (pairs : List (String × String)) : Url :=
  let added := Http.Form.encode pairs
  match url.query with
  | none | some [] => { url with query := some added }
  | some query => { url with query := some (query ++ [Http.Form.ampersand] ++ added) }

def target (url : Url) : List UInt8 :=
  match url.query with
  | none => url.path
  | some query => url.path ++ [Http.questionMark] ++ query

/-- An address must not be too long, its scheme and its authority counted. -/
def fits (url : Url) : Bool :=
  (Text.toBytes ("http://" ++ url.authority)).length + url.target.length ≤ Http.targetLimit

end Url
end Deferral.Client
