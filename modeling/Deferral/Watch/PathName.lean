import Deferral.Text.Split

/-!
Paths of files: parts between slashes. Empty parts and dots in the middle mean nothing.
-/

namespace Deferral.Watch

structure PathName where
  text : String
  deriving DecidableEq, Repr

namespace PathName

private def parts (p : PathName) : List String := (Text.splitOn '/' p.text.toList).map String.ofList

private def isIdle (part : String) : Bool := part = "" || part = "."

/-- The parts up to the last one that means something. A part at the front is kept even if it does
not: it makes the path absolute or says that it is relative. -/
private def trim : List String → List String
  | [] => []
  | first :: rest => first :: (rest.reverse.dropWhile isIdle).reverse

def names (p : PathName) : List String := p.parts.filter (!isIdle ·)

def isAbsolute (p : PathName) : Bool := p.text.toList.head? = some '/'

def below? (p base : PathName) : Option (List String) :=
  if p.isAbsolute = base.isAbsolute ∧ base.names.isPrefixOf p.names then some (p.names.drop base.names.length)
  else none

/-- The part that names the file; `..` and the root name none. -/
def fileName? (p : PathName) : Option String := p.names.getLast?.filter (· ≠ "..")

/-- The path written with a slash at its end: only a directory can be meant. -/
def namesDirectory (p : PathName) : Bool := p.parts.length > 1 && p.parts.getLast?.any isIdle

/-- The directory that a file is in; of a path without one, the current directory. -/
def directory (p : PathName) : PathName :=
  match trim (trim p.parts).dropLast with
  | [] => ⟨"."⟩
  | [""] => if p.isAbsolute then ⟨"/"⟩ else ⟨"."⟩
  | kept => ⟨"/".intercalate kept⟩

def isHere (p : PathName) : Bool := !p.isAbsolute && p.names.isEmpty

/-- The path leads to where it starts or up from there, so that it exists. -/
def isUpward (p : PathName) : Bool := p.names.all (· = "..")

end PathName
end Deferral.Watch
