import CrashMonitor.Lib.Json

/-!
# Sanitizer — masking the user's identity in texts

Model of `preprocessors/sanitizer.rs`: how the identity is taken from `USER` and
`HOME`, how one text is masked, and how a JSON document is masked text by text.

Texts are lists of characters inside the functions. The source works on byte
offsets of an ASCII-lowercased copy; lowercasing keeps every offset, and a
match of one UTF-8 string in another starts and ends on character boundaries,
so offsets in characters say the same.
-/

namespace CrashMonitor.Privacy

/-! ## Replacing a path prefix -/

/-- `to_ascii_lowercase`. -/
def foldCase (text : List Char) : List Char := text.map Char.toLower

/-- `folded_value[cursor..].find(&folded_prefix)`: the characters before the
first occurrence, and the text from the occurrence on. -/
def findFolded (pattern : List Char) : List Char → Option (List Char × List Char)
  | [] => if (foldCase pattern).isEmpty then some ([], []) else none
  | c :: rest =>
    if (foldCase pattern).isPrefixOf (foldCase (c :: rest)) then some ([], c :: rest)
    else (findFolded pattern rest).map fun found => (c :: found.1, found.2)

/-- `end == value.len() || value.as_bytes().get(end) == Some(&b'/')`. -/
def componentBoundary (after : List Char) : Bool := after.isEmpty || after.head? == some '/'

/-- The `while let` loop of `replace_path_prefix` on the text from the cursor.
Every turn moves the cursor past a non-empty match, so the number of characters
left bounds the number of turns. -/
def replaceLoop (pattern replacement : List Char) : Nat → List Char → List Char
  | 0, rest => rest
  | turns + 1, rest =>
    match findFolded pattern rest with
    | none => rest
    | some (before, here) =>
      let after := here.drop pattern.length
      if componentBoundary after then
        before ++ replacement ++ replaceLoop pattern replacement turns after
      else
        before ++ here.take pattern.length ++ replaceLoop pattern replacement turns after

def replacePathPrefix (value pattern replacement : List Char) : List Char :=
  if pattern.isEmpty then value
  else replaceLoop pattern replacement value.length value

/-! ## The sanitizer -/

structure Sanitizer where
  username : Option String
  home : Option String
  deriving DecidableEq, Repr

/-- `path.trim_end_matches('/').rsplit('/').next()`. -/
def lastComponent (path : List Char) : List Char :=
  ((path.reverse.dropWhile (· == '/')).takeWhile (· != '/')).reverse

/-- `Sanitizer::from_identity` on the values of `USER` and `HOME`. -/
def Sanitizer.fromIdentity (user home : Option String) : Sanitizer :=
  let home := home.filter fun value => !value.toList.isEmpty
  let username := (user.filter fun value => !value.toList.isEmpty).or
    ((home.map fun path => lastComponent path.toList).filter
      (fun name => !name.isEmpty) |>.map String.ofList)
  { username, home }

namespace Sanitizer

variable (sanitizer : Sanitizer)

def maskHome (value : List Char) : List Char :=
  match sanitizer.home with
  | none => value
  | some home => replacePathPrefix value home.toList "[HOME]".toList

def maskUser (value : List Char) : List Char :=
  match sanitizer.username with
  | none => value
  | some user =>
    let masked := replacePathPrefix value ("/Users/".toList ++ user.toList)
      "/Users/[USERNAME]".toList
    -- `eq_ignore_ascii_case`: a text that is the user name itself
    if foldCase masked = foldCase user.toList then "[USERNAME]".toList else masked

def sanitizeStr (value : String) : String :=
  .ofList (sanitizer.maskUser (sanitizer.maskHome value.toList))

/-- `sanitize_json_value`, and `sanitize_to_value` on an encoded value: string
values are masked, keys and all other values stay. -/
def sanitizeJsonValue (value : Json) : Json := value.mapTexts sanitizer.sanitizeStr

end Sanitizer

/-! ## What is masked and what is left alone -/

theorem foldCase_length (text : List Char) : (foldCase text).length = text.length := by
  simp [foldCase]

theorem foldCase_append (a b : List Char) : foldCase (a ++ b) = foldCase a ++ foldCase b := by
  simp [foldCase]

namespace Sanitizer

variable {sanitizer : Sanitizer}

/-- Without an identity nothing is masked. -/
theorem sanitizeStr_unknown (value : String) :
    sanitizeStr { username := none, home := none } value = value := by
  simp [sanitizeStr, maskHome, maskUser]

end Sanitizer

end CrashMonitor.Privacy
