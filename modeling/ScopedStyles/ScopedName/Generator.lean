import ScopedStyles.Digest.Encoding
import ScopedStyles.Identifier.Basic
import ScopedStyles.ScopedName.Template

/-!
Scoped names: an identifier made from a local name, the path of its file and the content of the
file. Expanding a template replaces each placeholder once; what comes out of a placeholder is not
looked at again.
-/

namespace ScopedStyles

/-! ## Parts of a path -/

structure PathParts where
  name : List Char
  /-- What follows the last dot of the file name, unless it begins the name. -/
  extension : List Char
  folder : List Char
  /-- All directories, each with a slash behind it. -/
  directories : List Char
deriving DecidableEq, Repr

namespace PathParts

def cutLast? (separator : Char) (text : List Char) : Option (List Char × List Char) :=
  let behind := (text.reverse.takeWhile (· ≠ separator)).reverse
  if separator ∈ text then some (text.take (text.length - behind.length - 1), behind) else none

def ofPath (path : List Char) : PathParts :=
  let (directory, file) := (cutLast? '/' path).getD ([], path)
  let (name, extension) :=
    match cutLast? '.' file with
    | some (name, extension) => if name.isEmpty then (file, []) else (name, extension)
    | none => (file, [])
  let folder := ((cutLast? '/' directory).getD ([], directory)).2
  let directories := if directory.isEmpty then [] else directory.dropWhile (· = '/') ++ ['/']
  ⟨name, extension, folder, directories⟩

example : ofPath "src/app/a.module.css".toList =
    ⟨"a.module".toList, "css".toList, "app".toList, "src/app/".toList⟩ := by decide

end PathParts

/-! ## Valid identifiers -/

def Identifier.isSafe (character : Char) : Bool :=
  character.isAlphanum || character == '_' || character == '-'

def Identifier.needsLead : List Char → Bool
  | '-' :: second :: _ => second.isDigit
  | first :: _ => first.isDigit
  | [] => true

/-- Make a name valid: what cannot stand in it becomes a low line, and one is put before it where
an identifier cannot begin. -/
def Identifier.sanitize (name : List Char) : List Char :=
  let safe := name.map fun character => if isSafe character then character else '_'
  if needsLead safe then '_' :: safe else safe

def sanitizeIdentifier (name : String) : String :=
  String.ofList (Identifier.sanitize name.toList)

example : sanitizeIdentifier "-1é" = "_-1_" ∧ sanitizeIdentifier "" = "_" := by decide +kernel

/-! ## Generators -/

inductive NamePattern where
  | template (text : String)
  | custom (generate : (localName path content : String) → String)

def NamePattern.standard : NamePattern :=
  .template "_[local]_[hash:base64:5]"

structure NameGenerator where
  pattern : NamePattern
  salt : String

namespace NameGenerator

def defaultLength : Nat := 8

def length? (digits : List Char) : Option Nat :=
  let length := digits.foldl (fun value digit => 10 * value + (digit.toNat - 48)) 0
  if digits.all Char.isDigit && length < 0x10000000000000000 then some length else none

/-- Write a digest as a placeholder asks. A number in the place of the encoding is a length; an
encoding that does not exist gives nothing. -/
def encode? (encoding length : Option (List Char)) (digest : Digest) : Option (List Char) :=
  match encoding with
  | none =>
    some (Encoding.base64.encodeTo (some ((length.bind length?).getD defaultLength)) digest)
  | some word =>
    if (length.bind length?).isNone && word.all Char.isDigit then
      some (Encoding.base64.encodeTo (length? word) digest)
    else
      (Encoding.ofName? (String.ofList word)).map fun encoding =>
        encoding.encodeTo (length.bind length?) digest

/-- What the hash of a name is taken of: path, local name and content, a zero byte between them. -/
def hashInput (salt localName path content : String) : ByteArray :=
  salt.toUTF8 ++ path.toUTF8 ++ ⟨#[0]⟩ ++ localName.toUTF8 ++ ⟨#[0]⟩ ++ content.toUTF8

def expandPart (salt localName path content : String) : TemplatePart → List Char
  | .text character => [character]
  | .placeholder placeholder =>
    match placeholder.subject with
    | .localName => localName.toList
    | .fileName => (PathParts.ofPath path.toList).name
    | .extension => (PathParts.ofPath path.toList).extension
    | .folder => (PathParts.ofPath path.toList).folder
    | .path => (PathParts.ofPath path.toList).directories
    | .hash =>
      (encode? placeholder.encoding placeholder.length
        (Xxh3.hash (hashInput salt localName path content))).getD placeholder.spelling
    | .contentHash =>
      (encode? placeholder.encoding placeholder.length
        (Xxh3.hash content.toUTF8)).getD placeholder.spelling

def expand (template salt localName path content : String) : List Char :=
  (Template.read template.toList).flatMap (expandPart salt localName path content)

def generate (generator : NameGenerator) (localName path content : String) : String :=
  match generator.pattern with
  | .custom generate => generate localName path content
  | .template template =>
    String.ofList (Identifier.sanitize (expand template generator.salt localName path content))

end NameGenerator

end ScopedStyles
