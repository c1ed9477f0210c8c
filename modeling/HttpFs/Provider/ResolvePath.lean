import Mathlib.Algebra.GroupWithZero.Nat
import HttpFs.Foundation.Text
import HttpFs.Foundation.LexicalPath

namespace HttpFs

open LexicalPath PathAlphabet

instance : PathAlphabet UInt8 where
  slash := byte '/'
  dot := byte '.'
  slash_ne_dot := by decide

/-- The code points of a Python string, lone surrogates included. -/
abbrev CodePoint := Fin 0x110000

instance neZero_codePoints : NeZero 0x110000 := ⟨by decide⟩

instance : PathAlphabet CodePoint where
  slash := 47
  dot := 46
  slash_ne_dot := by decide

namespace CProvider

/-- `strstr(path, text) != NULL`. -/
def containsText (text path : Bytes) : Bool := (strstr text path).isSome

/-- `resolve_path` of the C provider; the paths of its callers are shorter than
2048 bytes, so `snprintf` never reports an overflow of `int`. -/
def resolvePath (rootDir path : Bytes) (resolvedSize : Nat) : Option Bytes :=
  if path.head? ≠ some (byte '/') then
    none
  else if path = ascii "/" then
    if rootDir.length < resolvedSize then some rootDir else none
  else if containsText (ascii "/../") path || containsText (ascii "/./") path ||
      containsText (ascii "//") path || path == ascii "/.." || path == ascii "/." then
    none
  else if (rootDir ++ path).length < resolvedSize then
    some (rootDir ++ path)
  else
    none

end CProvider

namespace GoProvider

variable {α : Type} [DecidableEq α] [PathAlphabet α]

def isAbs (path : List α) : Bool := path.head? == some slash

/-- `filepath.Clean`. -/
def clean (path : List α) : List α :=
  if isAbs path then
    absolute (normalNames true path)
  else
    let relative := [slash].intercalate (normalNames false path)
    if relative = [] then curdir else relative

/-- `filepath.Join`. -/
def join (elements : List (List α)) : List α :=
  let kept := elements.filter (fun element => element != [])
  if kept = [] then [] else clean ([slash].intercalate kept)

/-- `filepath.Abs`, given the working directory. -/
def abs (workingDir path : List α) : List α :=
  if isAbs path then clean path else join [workingDir, path]

/-- `(*server).resolvePath` of the Go provider. -/
def resolvePath (workingDir rootDir path : List α) : Option (List α) :=
  if !isAbs path then
    none
  else if path = [slash] then
    some rootDir
  else
    let candidate := abs workingDir (join [rootDir, clean path])
    let rootWithSep := rootDir ++ [slash]
    if candidate ≠ rootDir ∧ ¬ rootWithSep <+: candidate then
      none
    else
      some candidate

end GoProvider

namespace PythonProvider

variable {α : Type} [DecidableEq α] [PathAlphabet α]

def isAbs (path : List α) : Bool := path.head? == some slash

/-- `path.lstrip("/")`. -/
def lstrip (path : List α) : List α := path.dropWhile (fun c => c == slash)

/-- `os.path.join` of two paths. -/
def join (first second : List α) : List α :=
  if isAbs second then
    second
  else if first = [] ∨ first.getLast? = some slash then
    first ++ second
  else
    first ++ slash :: second

/-- The slashes `os.path.normpath` keeps in front: exactly two are kept as they
are, any other number counts as one. -/
def initialSlashes (path : List α) : Nat :=
  if !isAbs path then
    0
  else if [slash, slash] <+: path ∧ ¬ [slash, slash, slash] <+: path then
    2
  else
    1

/-- `os.path.normpath`. -/
def normpath (path : List α) : List α :=
  let slashes := initialSlashes path
  let normal := List.replicate slashes slash ++
    [slash].intercalate (normalNames (slashes ≠ 0) path)
  if normal = [] then curdir else normal

/-- `os.path.abspath`, given the working directory. -/
def abspath (workingDir path : List α) : List α :=
  normpath (if isAbs path then path else join workingDir path)

def commonPrefix : List (List α) → List (List α) → List (List α)
  | first :: firsts, second :: seconds =>
      if first = second then first :: commonPrefix firsts seconds else []
  | _, _ => []

/-- `os.path.commonpath` of two paths; `none` is its `ValueError` on a mix of
absolute and relative paths. -/
def commonpath (first second : List α) : Option (List α) :=
  let parts (path : List α) :=
    (components path).filter (fun component => component != curdir)
  if isAbs first ≠ isAbs second then
    none
  else
    some ((if isAbs first then [slash] else []) ++
      [slash].intercalate (commonPrefix (parts first) (parts second)))

/-- `resolve_path` of the Python provider. -/
def resolvePath (workingDir rootDir path : List α) : Option (List α) :=
  if !isAbs path then
    none
  else if path = [slash] then
    some rootDir
  else
    let candidate := abspath workingDir (join rootDir (lstrip path))
    if commonpath rootDir candidate ≠ some rootDir then none else some candidate

end PythonProvider

end HttpFs
