import DirectiveMarkdown.Text.Basic

/-! Files and directories, and the way from a path to one of them. There are no links, and every
file may be read and written. -/
namespace DirectiveMarkdown

/-- The place of a file or directory: the names from the root down to it. -/
abbrev Location := List Text

/-- A path as it is written: the pieces between its slashes. It is absolute if the first piece is
empty and others follow. -/
abbrev Path := List Text

namespace Path

def ofText (s : Text) : Path := Text.splitOn '/' s

def toText (path : Path) : Text := Text.join ['/'] path

def ofLocation (location : Location) : Path := [] :: location

end Path

inductive FileError where
  | notFound
  | notDirectory
  | isDirectory
  | nameTooLong
  | other (description : Text)
deriving DecidableEq

def FileError.message : FileError → Text
  | .notFound => text "No such file or directory (os error 2)"
  | .notDirectory => text "Not a directory (os error 20)"
  | .isDirectory => text "Is a directory (os error 21)"
  | .nameTooLong => text "File name too long (os error 36)"
  | .other description => description

inductive Entry where
  | directory
  | file (content : Text)
deriving DecidableEq

/-- Everything but the root directory, which is always there. -/
structure FileSystem where
  entries : List (Location × Entry) := []
deriving DecidableEq

namespace FileSystem

def at? (files : FileSystem) (location : Location) : Option Entry :=
  if location = [] then some .directory else files.entries.lookup location

/-- Puts an entry in its place, over the one that is there. -/
def putEntry (location : Location) (entry : Entry) :
    List (Location × Entry) → List (Location × Entry)
  | [] => [(location, entry)]
  | (other, old) :: rest =>
    if other = location then (location, entry) :: rest
    else (other, old) :: putEntry location entry rest

def put (files : FileSystem) (location : Location) (entry : Entry) : FileSystem :=
  ⟨putEntry location entry files.entries⟩

/-- Only the place that the entry is put in holds something else afterwards. -/
theorem lookup_putEntry (location : Location) (entry : Entry) (entries : List (Location × Entry))
    (other : Location) :
    (putEntry location entry entries).lookup other =
      if other = location then some entry else entries.lookup other := by
  induction entries with
  | nil =>
    by_cases h : other = location
    · simp [putEntry, h]
    · have hBeq : (other == location) = false := by simpa using h
      simp [putEntry, List.lookup_cons, h, hBeq]
  | cons head rest ih =>
    obtain ⟨headLocation, headEntry⟩ := head
    unfold putEntry
    split
    · next hHead =>
      by_cases h : other = location
      · simp [h]
      · have hBeq : (other == location) = false := by simpa using h
        simp [List.lookup_cons, hHead, h, hBeq]
    · next hHead =>
      by_cases h : (other == headLocation) = true
      · have hEq : other = headLocation := by simpa using h
        have hNe : other ≠ location := fun hOther => hHead (hEq ▸ hOther)
        simp [List.lookup_cons, h, hNe]
      · have hBeq : (other == headLocation) = false := by simpa using h
        simp [List.lookup_cons, hBeq, ih]

/-- An entry that is put somewhere is found there, and what stands elsewhere stays. -/
theorem at?_put (files : FileSystem) {location : Location} (entry : Entry) (other : Location)
    (hRoot : location ≠ []) :
    (files.put location entry).at? other =
      if other = location then some entry else files.at? other := by
  by_cases h : other = []
  · have hNe : other ≠ location := fun hEq => hRoot (hEq ▸ h)
    simp [at?, h, Ne.symm hRoot]
  · simp [at?, put, h, lookup_putEntry]

/-- Makes a directory and those above it. What is there stays. -/
def makeDirectory (files : FileSystem) (location : Location) : FileSystem :=
  (List.range location.length).foldl (fun files n =>
    let above := location.take (n + 1)
    if (files.at? above).isSome then files else files.put above .directory) files

def makeFile (files : FileSystem) (location : Location) (content : Text) : FileSystem :=
  (files.makeDirectory location.dropLast).put location (.file content)

/-- The longest name in bytes. -/
def nameLimit : Nat := 255

/-- Bytes that no path may reach. -/
def pathLimit : Nat := 4096

/-- Goes on from a place by the pieces of a path, each of which is looked up in a directory. -/
def walk (files : FileSystem) : Location → List Text → Except FileError Location
  | here, [] => .ok here
  | here, piece :: rest =>
    match files.at? here with
    | none => .error .notFound
    | some (.file _) => .error .notDirectory
    | some .directory =>
      if piece = [] ∨ piece = ['.'] then files.walk here rest
      else if piece = ['.', '.'] then files.walk here.dropLast rest
      else if nameLimit < Text.width piece then .error .nameTooLong
      else files.walk (here ++ [piece]) rest

/-- The place that a path leads to from a directory. Nothing need be there. -/
def locate (files : FileSystem) (start : Location) (path : Path) : Except FileError Location :=
  if path.toText = [] then .error .notFound
  else if pathLimit ≤ Text.width path.toText then .error .nameTooLong
  else match path with
    | [] :: pieces => files.walk [] pieces
    | pieces => files.walk start pieces

def exists? (files : FileSystem) (start : Location) (path : Path) : Bool :=
  match files.locate start path with
  | .ok location => (files.at? location).isSome
  | .error _ => false

def read (files : FileSystem) (start : Location) (path : Path) : Except FileError Text :=
  match files.locate start path with
  | .error error => .error error
  | .ok location =>
    match files.at? location with
    | none => .error .notFound
    | some .directory => .error .isDirectory
    | some (.file content) => .ok content

/-- The file system after a text is written to a file, which is made if it is not there. A path that
ends in a slash is that of a directory. -/
def write (files : FileSystem) (start : Location) (path : Path) (content : Text) :
    Except FileError FileSystem :=
  match (path.reverse.dropWhile List.isEmpty).reverse with
  | [] => .error (if path.toText = [] then .notFound else .isDirectory)
  | bare =>
    match files.locate start bare with
    | .error error => .error error
    | .ok location =>
      if files.at? location = some .directory ∨ bare ≠ path then .error .isDirectory
      else .ok (files.put location (.file content))

end FileSystem

end DirectiveMarkdown
