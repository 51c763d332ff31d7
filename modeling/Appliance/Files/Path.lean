import Appliance.Text.Cut

/-! Paths as texts, names with slashes between them, from the root where a slash comes first; and
why a machine refuses an operation on one. -/
namespace Appliance

inductive Fault where
  | notFound
  | alreadyExists
  | notDirectory
  | isDirectory
  | nameTooLong
  | tooManyLinks
  | nulInName
  | notUtf8
  | other (text : String)
  deriving DecidableEq, Repr

namespace Fault

def text : Fault → String
  | notFound => "No such file or directory (os error 2)"
  | alreadyExists => "File exists (os error 17)"
  | notDirectory => "Not a directory (os error 20)"
  | isDirectory => "Is a directory (os error 21)"
  | nameTooLong => "File name too long (os error 36)"
  | tooManyLinks => "Too many levels of symbolic links (os error 40)"
  | nulInName => "file name contained an unexpected NUL byte"
  | notUtf8 => "stream did not contain valid UTF-8"
  | other text => text

end Fault

namespace Path

def isAbsolute (path : String) : Bool := path.toList.head? = some '/'

def endsInSlash (path : String) : Bool := path.toList.getLast? = some '/'

/-- The names of a path; a slash next to another one separates nothing. -/
def names (path : String) : List String :=
  ((Text.cut '/' path.toList).filter (!·.isEmpty)).map String.ofList

/-- The names of a path that is to be followed to its end. An empty one stands for a slash at the
end, which asks for a directory. -/
def steps (path : String) : List String :=
  if endsInSlash path then names path ++ [""] else names path

/-- A name below a directory. An absolute name stands for itself. -/
def join (directory name : String) : String :=
  if isAbsolute name ∨ directory = "" then name
  else if endsInSlash directory then directory ++ name
  else directory ++ "/" ++ name

end Path

end Appliance
