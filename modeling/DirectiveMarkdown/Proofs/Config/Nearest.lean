import DirectiveMarkdown.Config.Loading
import DirectiveMarkdown.Proofs.CommandLine.Effects
import DirectiveMarkdown.Proofs.Text.Ink
import Mathlib.Data.List.Induction

/-! The configuration of a directory is the nearest one: that of the deepest directory, among itself and those above
it, in which there is anything with the name of configuration files. A nearer one that cannot be used is an
error, and no other is looked for. -/
namespace DirectiveMarkdown

/-! ### Trees of files -/

/-- A name that stands for itself in a path, and not for the directory where it is looked up or the one above. -/
def FileSystem.IsProperName (name : Text) : Prop :=
  name ∉ [[], ['.'], ['.', '.']] ∧ Text.width name ≤ FileSystem.nameLimit

instance (name : Text) : Decidable (FileSystem.IsProperName name) :=
  inferInstanceAs (Decidable (_ ∧ _))

/-- Every file and every directory but the root is in a directory, under a proper name. -/
structure FileSystem.IsTree (files : FileSystem) : Prop where
  inDirectory : ∀ item ∈ files.entries, files.at? item.1.dropLast = some .directory
  named : ∀ item ∈ files.entries, ∀ name ∈ item.1, FileSystem.IsProperName name

instance (files : FileSystem) : Decidable files.IsTree :=
  decidable_of_iff ((∀ item ∈ files.entries, files.at? item.1.dropLast = some .directory) ∧
      ∀ item ∈ files.entries, ∀ name ∈ item.1, FileSystem.IsProperName name)
    ⟨fun h => ⟨h.1, h.2⟩, fun h => ⟨h.inDirectory, h.named⟩⟩

namespace FileSystem

variable {files : FileSystem} {location start : Location}

theorem exists_mem_entries {name : Text} (h : (files.at? (location ++ [name])).isSome = true) :
    ∃ item ∈ files.entries, item.1 = location ++ [name] := by
  obtain ⟨entry, hEntry⟩ := Option.isSome_iff_exists.1 h
  have hNe : location ++ [name] ≠ [] := List.append_ne_nil_of_right_ne_nil _ (List.cons_ne_nil _ _)
  rw [at?, if_neg hNe] at hEntry
  obtain ⟨before, after, hEntries, -⟩ := List.lookup_eq_some_iff.1 hEntry
  exact ⟨(location ++ [name], entry), hEntries ▸ List.mem_append_cons_self, rfl⟩

theorem IsTree.isProperName (h : files.IsTree) {name : Text}
    (hThere : (files.at? (location ++ [name])).isSome = true) : IsProperName name := by
  obtain ⟨item, hItem, hPlace⟩ := exists_mem_entries hThere
  exact h.named item hItem name (hPlace ▸ List.mem_append_right _ (List.mem_singleton_self name))

theorem IsTree.parent (h : files.IsTree) {name : Text}
    (hThere : (files.at? (location ++ [name])).isSome = true) : files.at? location = some .directory := by
  obtain ⟨item, hItem, hPlace⟩ := exists_mem_entries hThere
  have hDirectory := h.inDirectory item hItem
  rwa [hPlace, List.dropLast_concat] at hDirectory

/-- All that a directory stands in are directories. -/
theorem IsTree.ofPrefix (h : files.IsTree) (hStart : files.at? start = some .directory)
    (hPrefix : location <+: start) : files.at? location = some .directory := by
  obtain ⟨below, rfl⟩ := hPrefix
  induction below using List.reverseRecOn with
  | nil => rwa [List.append_nil] at hStart
  | append_singleton below name ih =>
      rw [← List.append_assoc] at hStart
      exact ih (h.parent (Option.isSome_of_eq_some hStart))

theorem walk_properName (hDirectory : files.at? location = some .directory) {name : Text}
    (hName : IsProperName name) (rest : List Text) :
    files.walk location (name :: rest) = files.walk (location ++ [name]) rest := by
  obtain ⟨hProper, hWidth⟩ := hName
  simp only [List.mem_cons, List.not_mem_nil, or_false, not_or] at hProper
  obtain ⟨hEmpty, hHere, hAbove⟩ := hProper
  rw [walk, hDirectory]
  dsimp only
  rw [if_neg (not_or.2 ⟨hEmpty, hHere⟩), if_neg hAbove, if_neg (Nat.not_lt.2 hWidth)]

/-- The names of a directory lead to it from the root. -/
theorem IsTree.walk_append (h : files.IsTree) (hDirectory : files.at? location = some .directory)
    (rest : List Text) : files.walk [] (location ++ rest) = files.walk location rest := by
  induction location using List.reverseRecOn generalizing rest with
  | nil => rfl
  | append_singleton above name ih =>
      have hThere : (files.at? (above ++ [name])).isSome = true :=
        Option.isSome_of_eq_some hDirectory
      rw [List.append_assoc, List.singleton_append, ih (h.parent hThere),
        walk_properName (h.parent hThere) (h.isProperName hThere)]

end FileSystem

theorem Path.width_join (first : Text) (rest : List Text) :
    Text.width (Text.join ['/'] (first :: rest)) =
      Text.width first + total (fun name => Text.width name + 1) rest := by
  induction rest generalizing first with
  | nil => rfl
  | cons name rest ih =>
      rw [Text.join, Text.width_append, Text.width_append, ih, total_cons]
      · change Text.width first + 1 + _ = _
        omega
      · exact List.cons_ne_nil _ _

theorem Path.width_toText_ofLocation (location : Location) :
    Text.width (Path.ofLocation location).toText =
      total (fun name => Text.width name + 1) location := by
  rw [Path.toText, Path.ofLocation, Path.width_join, Text.width_nil, Nat.zero_add]

namespace Config

def placeIn (directory : Location) : Location := directory ++ [fileName]

/-- The directories enclosing a place are the beginnings of its location. -/
theorem mem_enclosing_iff {above start : Location} : above ∈ enclosing start ↔ above <+: start := by
  induction start generalizing above with
  | nil => rw [enclosing, List.mem_singleton, List.prefix_nil]
  | cons name rest ih =>
      rw [enclosing, List.mem_append, List.mem_singleton, List.mem_map]
      constructor
      · rintro (⟨inner, hInner, rfl⟩ | rfl)
        · exact List.cons_prefix_cons.2 ⟨rfl, ih.1 hInner⟩
        · exact List.nil_prefix
      · intro hPrefix
        cases above with
        | nil => exact .inr rfl
        | cons first inner =>
            obtain ⟨rfl, hInner⟩ := List.cons_prefix_cons.1 hPrefix
            exact .inl ⟨inner, ih.2 hInner, rfl⟩

/-- The directories are gone through from the deepest to the root. -/
theorem enclosing_pairwise (start : Location) :
    (enclosing start).Pairwise fun deeper above => above.length < deeper.length := by
  induction start with
  | nil => exact List.pairwise_singleton ..
  | cons name rest ih =>
      rw [enclosing, List.pairwise_append]
      refine ⟨?_, List.pairwise_singleton .., ?_⟩
      · rw [List.pairwise_map]
        exact ih.imp Nat.succ_lt_succ
      · intro deeper hDeeper above hAbove
        obtain ⟨inner, -, rfl⟩ := List.mem_map.1 hDeeper
        rw [List.mem_singleton.1 hAbove]
        exact Nat.succ_pos _

section Nearest

variable {tree : FileSystem} {start above : Location}

/-- The deepest directory, among the given one and those above it, that has a configuration or anything else
with its name. -/
structure IsNearest (tree : FileSystem) (start above : Location) : Prop where
  encloses : above <+: start
  present : (tree.at? (placeIn above)).isSome = true
  deepest : ∀ other, other <+: start → (tree.at? (placeIn other)).isSome = true →
    other.length ≤ above.length

/-- The first directory, from the given one upwards, that has anything with the name. -/
def nearest? (tree : FileSystem) (start : Location) : Option Location :=
  (enclosing start).find? fun above => (tree.at? (placeIn above)).isSome

/-- There is at most one nearest directory. -/
theorem IsNearest.unique {other : Location} (h : IsNearest tree start above)
    (hOther : IsNearest tree start other) : above = other := by
  have hLength : above.length = other.length :=
    Nat.le_antisymm (hOther.deepest _ h.encloses h.present) (h.deepest _ hOther.encloses hOther.present)
  have hAbove := List.prefix_iff_eq_take.1 h.encloses
  rw [hLength, ← List.prefix_iff_eq_take.1 hOther.encloses] at hAbove
  exact hAbove

/-- None is nearest exactly if the name is free in every enclosing directory. -/
theorem nearest?_eq_none_iff :
    nearest? tree start = none ↔ ∀ above, above <+: start → tree.at? (placeIn above) = none := by
  simp only [nearest?, List.find?_eq_none, mem_enclosing_iff, Option.not_isSome_iff_eq_none]

theorem isNearest_of_nearest? (h : nearest? tree start = some above) : IsNearest tree start above := by
  obtain ⟨hPresent, before, after, hDivided, hNone⟩ := List.find?_eq_some_iff_append.1 h
  have hMem : above ∈ enclosing start := List.mem_of_find?_eq_some h
  refine ⟨mem_enclosing_iff.1 hMem, hPresent, fun other hOther hFound => ?_⟩
  have hDeeper := enclosing_pairwise start
  have hOther := mem_enclosing_iff.2 hOther
  rw [hDivided] at hDeeper hOther
  rcases List.mem_append.1 hOther with hBefore | hAfter
  · have hAbsent := hNone other hBefore
    rw [hFound] at hAbsent
    cases hAbsent
  · rcases List.mem_cons.1 hAfter with rfl | hAfter
    · exact Nat.le_refl _
    · exact Nat.le_of_lt ((List.pairwise_cons.1 (List.pairwise_append.1 hDeeper).2.1).1 other hAfter)

/-- The search upwards finds the deepest directory. -/
theorem nearest?_eq_some_iff : nearest? tree start = some above ↔ IsNearest tree start above := by
  refine ⟨isNearest_of_nearest?, fun h => ?_⟩
  cases hFound : nearest? tree start with
  | none =>
      have hPresent := h.present
      rw [nearest?_eq_none_iff.1 hFound above h.encloses] at hPresent
      cases hPresent
  | some found => rw [(isNearest_of_nearest? hFound).unique h]

end Nearest

/-! ### Any machine that holds the files -/

section Machine

variable {σ : Type}

/-- A search whose tests change nothing finds the first item that passes. -/
theorem findM?_eq_find? {α : Type} {test : α → StateM σ Bool} {passes : α → Bool} {items : List α}
    {state : σ} (h : ∀ item ∈ items, test item state = (passes item, state)) :
    (items.findM? test) state = (items.find? passes, state) := by
  induction items with
  | nil => rfl
  | cons item rest ih =>
      obtain ⟨hItem, hRest⟩ := List.forall_mem_cons.1 h
      rw [List.findM?, CommandLine.stateM_bind, hItem, List.find?_cons]
      cases passes item with
      | true => rfl
      | false => exact ih hRest

variable [MonadMachine (StateM σ)]

/-- A machine that works in the given directory holds the tree of files, as far as it is asked for configurations
in this directory and in those above it. Asking changes nothing. -/
structure Holds (tree : FileSystem) (start : Location) (state : σ) : Prop where
  workingDirectory : (MonadMachine.workingDirectory : StateM σ _) state = (some start, state)
  pathExists : ∀ above, above <+: start →
    (MonadMachine.pathExists (Path.ofLocation (placeIn above)) : StateM σ _) state =
      ((tree.at? (placeIn above)).isSome, state)
  readFile : ∀ above content, above <+: start → tree.at? (placeIn above) = some (.file content) →
    (MonadMachine.readFile (Path.ofLocation (placeIn above)) : StateM σ _) state = (.ok content, state)
  readDirectory : ∀ above, above <+: start → tree.at? (placeIn above) = some .directory →
    ∃ error, (MonadMachine.readFile (Path.ofLocation (placeIn above)) : StateM σ _) state =
      (.error error, state)

variable {tree : FileSystem} {start above : Location} {state : σ} (h : Holds tree start state)

include h

/-- Discovery finds the place of the name in the nearest directory that has it, and changes nothing.
-/
theorem discover?_eq :
    (discover? : StateM σ _) state =
      ((nearest? tree start).map fun above => Path.ofLocation (placeIn above), state) := by
  have hTests : ∀ path ∈ candidates start, (MonadMachine.pathExists path : StateM σ _) state =
      ((fun path : Path => (tree.at? path.tail).isSome) path, state) := by
    intro path hPath
    obtain ⟨above, hAbove, rfl⟩ := List.mem_map.1 hPath
    exact h.pathExists above (mem_enclosing_iff.1 hAbove)
  rw [discover?, CommandLine.stateM_bind, h.workingDirectory]
  dsimp only
  rw [findM?_eq_find? hTests, candidates, List.find?_map]
  rfl

/-- Without a file in reach the standard configuration is loaded, under the overrides. -/
theorem load_of_nearest?_eq_none (hNearest : nearest? tree start = none) (overrides : Overrides) :
    (load none overrides : StateM σ _) state = (.ok (Config.override {} overrides), state) := by
  rw [load, CommandLine.stateM_bind, discover?_eq h, hNearest]
  rfl

/-- The file that is found is read, and nothing is tried in place of it. -/
theorem load_of_nearest?_eq_some (hNearest : nearest? tree start = some above) (overrides : Overrides) :
    (load none overrides : StateM σ _) state =
      ((readFile (Path.ofLocation (placeIn above)) : StateM σ _) >>= fun loaded =>
        pure (loaded.map (·.override overrides))) state := by
  rw [load, CommandLine.stateM_bind, discover?_eq h, hNearest]
  rfl

theorem load_of_file {content : Text} (hNearest : IsNearest tree start above)
    (hFile : tree.at? (placeIn above) = some (.file content)) (overrides : Overrides) :
    (load none overrides : StateM σ _) state =
      ((read content).map fun config =>
        { config with file := some (Path.ofLocation (placeIn above)) }.override overrides, state) := by
  have hRead : (readFile (Path.ofLocation (placeIn above)) : StateM σ _) state =
      ((read content).map fun config =>
        { config with file := some (Path.ofLocation (placeIn above)) }, state) := by
    rw [readFile, CommandLine.stateM_bind, h.readFile above content hNearest.encloses hFile]
    rfl
  rw [load_of_nearest?_eq_some h (nearest?_eq_some_iff.2 hNearest), CommandLine.stateM_bind, hRead]
  cases read content <;> rfl

/-- A directory in the place of the nearest file makes loading fail. -/
theorem load_of_directory (hNearest : IsNearest tree start above)
    (hDirectory : tree.at? (placeIn above) = some .directory) (overrides : Overrides) :
    ∃ error, (load none overrides : StateM σ _) state = (.error (.unreadable error), state) := by
  obtain ⟨error, hError⟩ := h.readDirectory above hNearest.encloses hDirectory
  have hRead : (readFile (Path.ofLocation (placeIn above)) : StateM σ _) state =
      (.error (.unreadable error), state) := by
    rw [readFile, CommandLine.stateM_bind, hError]
    rfl
  refine ⟨error, ?_⟩
  rw [load_of_nearest?_eq_some h (nearest?_eq_some_iff.2 hNearest), CommandLine.stateM_bind, hRead]
  rfl

/-- Without a given path the nearest configuration counts. The search ends with it, or with nothing exactly if there
is none. What is loaded is what the text of this file says, also where it is malformed or has a problem, and
something else in its place is an error; what other files there are makes no difference. -/
theorem load_uses_nearest (overrides : Overrides) :
    (∃ found, (discover? : StateM σ _) state = (found, state)) ∧
    (∀ path, ((discover? : StateM σ _) state).1 = some path ↔
      ∃ above, IsNearest tree start above ∧ Path.ofLocation (placeIn above) = path) ∧
    (((discover? : StateM σ _) state).1 = none ↔
      ∀ above, above <+: start → tree.at? (placeIn above) = none) ∧
    (∀ above, IsNearest tree start above →
      (∀ content, tree.at? (placeIn above) = some (.file content) →
        (load none overrides : StateM σ _) state =
          ((read content).map fun config =>
            { config with file := some (Path.ofLocation (placeIn above)) }.override overrides, state)) ∧
      (tree.at? (placeIn above) = some .directory → ∃ error,
        (load none overrides : StateM σ _) state = (.error (.unreadable error), state))) ∧
    ((∀ above, above <+: start → tree.at? (placeIn above) = none) →
      (load none overrides : StateM σ _) state = (.ok (Config.override {} overrides), state)) := by
  refine ⟨⟨_, discover?_eq h⟩, fun path => ?_, ?_,
    fun above hNearest => ⟨fun content hFile => load_of_file h hNearest hFile overrides,
      fun hDirectory => load_of_directory h hNearest hDirectory overrides⟩,
    fun hNone => load_of_nearest?_eq_none h (nearest?_eq_none_iff.2 hNone) overrides⟩
  · simp only [discover?_eq h, Option.map_eq_some_iff, nearest?_eq_some_iff]
  · rw [discover?_eq h, Option.map_eq_none_iff, nearest?_eq_none_iff]

end Machine

/-! ### The machine as a value -/

theorem isProperName_fileName : FileSystem.IsProperName fileName := by decide

variable {machine : Machine} {above : Location}

/-- Paths to the configurations of a directory and of those above it can be used if the longest of them can. -/
theorem locate_placeIn (hTree : machine.files.IsTree)
    (hDirectory : machine.files.at? machine.workingDirectory = some .directory)
    (hWidth : Text.width (Path.ofLocation (placeIn machine.workingDirectory)).toText < FileSystem.pathLimit)
    (hAbove : above <+: machine.workingDirectory) :
    machine.files.locate machine.workingDirectory (Path.ofLocation (placeIn above)) = .ok (placeIn above) := by
  have hThere := hTree.ofPrefix hDirectory hAbove
  have hShorter : Text.width (Path.ofLocation (placeIn above)).toText < FileSystem.pathLimit := by
    refine Nat.lt_of_le_of_lt ?_ hWidth
    rw [Path.width_toText_ofLocation, Path.width_toText_ofLocation]
    exact total_le_of_sublist _ (hAbove.sublist.append (List.Sublist.refl _))
  have hNe : (Path.ofLocation (placeIn above)).toText ≠ [] := by
    intro hEmpty
    have hWidth := Path.width_toText_ofLocation (placeIn above)
    rw [hEmpty, placeIn, total_append] at hWidth
    simp only [Text.width_nil, total_cons] at hWidth
    omega
  rw [Path.ofLocation] at hNe hShorter ⊢
  rw [FileSystem.locate, if_neg hNe, if_neg (Nat.not_le.2 hShorter), placeIn, hTree.walk_append hThere,
    FileSystem.walk_properName hThere isProperName_fileName]
  rfl

/-- A machine holds its own files. -/
theorem holds_machine (hTree : machine.files.IsTree)
    (hDirectory : machine.files.at? machine.workingDirectory = some .directory)
    (hWidth : Text.width (Path.ofLocation (placeIn machine.workingDirectory)).toText < FileSystem.pathLimit) :
    Holds machine.files machine.workingDirectory machine where
  workingDirectory := rfl
  pathExists above hAbove := by
    change (machine.files.exists? _ _, machine) = _
    rw [FileSystem.exists?, locate_placeIn hTree hDirectory hWidth hAbove]
  readFile above content hAbove hFile := by
    change (machine.files.read _ _, machine) = _
    rw [FileSystem.read, locate_placeIn hTree hDirectory hWidth hAbove]
    dsimp only
    rw [hFile]
  readDirectory above hAbove hFound := by
    refine ⟨.isDirectory, ?_⟩
    change (machine.files.read _ _, machine) = _
    rw [FileSystem.read, locate_placeIn hTree hDirectory hWidth hAbove]
    dsimp only
    rw [hFound]

/-- A malformed configuration in the directory above is an error, although there is an empty one further up. -/
theorem load_uses_nearest_malformed :
    let machine : Machine := {
      files := ⟨[([text "sfdocs.toml"], .file []), ([text "docs"], .directory),
        ([text "docs", text "sfdocs.toml"], .file (text "[")), ([text "docs", text "guide"], .directory)]⟩
      workingDirectory := [text "docs", text "guide"] }
    Holds machine.files machine.workingDirectory machine ∧
      IsNearest machine.files machine.workingDirectory [text "docs"] ∧
      (load none {} : StateM Machine _) machine = (.error .malformed, machine) := by
  intro machine
  have hHolds : Holds machine.files machine.workingDirectory machine :=
    holds_machine (by decide +kernel) (by decide +kernel) (by decide +kernel)
  have hNearest : IsNearest machine.files machine.workingDirectory [text "docs"] :=
    nearest?_eq_some_iff.1 (by decide +kernel)
  have hToml : Toml.read? (text "[") = none := Option.isNone_iff_eq_none.1 (by decide +kernel)
  refine ⟨hHolds, hNearest, ?_⟩
  rw [((load_uses_nearest hHolds {}).2.2.2.1 _ hNearest).1 (text "[") (by decide +kernel), read, hToml]
  rfl

end Config

end DirectiveMarkdown
