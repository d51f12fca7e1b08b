import DirectiveMarkdown.Proofs.Markdown.Nesting

/-! Well-nested events. Read from left to right, with the open elements on a stack, every end is that
of the innermost open element and none is open at the end. Such events are those of a forest. -/
namespace DirectiveMarkdown.Markdown

/-- An element with its content, or an event that starts and ends nothing. -/
inductive EventTree where
  | leaf (event : Event) (hLeaf : event.isBoundary = false)
  | element (tag : Tag) (content : List EventTree)

namespace EventTree

mutual

def events : EventTree → List Event
  | leaf event _ => [event]
  | element tag content => tag.around (allEvents content)

def allEvents : List EventTree → List Event
  | [] => []
  | tree :: rest => tree.events ++ allEvents rest

end

theorem allEvents_cons_element (tag : Tag) (content rest : List EventTree) :
    allEvents (element tag content :: rest) =
      .start tag :: (allEvents content ++ .stop tag :: allEvents rest) := by
  simp [allEvents, events, Tag.around]

end EventTree

/-- The elements that are open behind the events, innermost first, if those of `opened` are open
before them. There are none where an end is not that of the innermost element. -/
def openTags : List Tag → List Event → Option (List Tag)
  | opened, [] => some opened
  | opened, .start tag :: rest => openTags (tag :: opened) rest
  | tag :: opened, .stop other :: rest => if tag = other then openTags opened rest else none
  | [], .stop _ :: _ => none
  | opened, _ :: rest => openTags opened rest

/-- Every start is matched by its end. -/
def WellNested (events : List Event) : Prop := openTags [] events = some []

instance (events : List Event) : Decidable (WellNested events) :=
  inferInstanceAs (Decidable (_ = _))

section OpenTags

variable {opened : List Tag} {events : List Event}

theorem openTags_leaf {event : Event} (h : event.isBoundary = false) (opened : List Tag)
    (rest : List Event) : openTags opened (event :: rest) = openTags opened rest := by
  cases event <;> first | (cases opened <;> rfl) | cases h

theorem openTags_stop (tag : Tag) (opened : List Tag) (rest : List Event) :
    openTags (tag :: opened) (.stop tag :: rest) = openTags opened rest := by
  rw [openTags, if_pos rfl]

/-- The elements that are open behind events are followed through more events. -/
theorem openTags_append (opened : List Tag) (events more : List Event) :
    openTags opened (events ++ more) = (openTags opened events).bind (openTags · more) := by
  induction events generalizing opened with
  | nil => cases opened <;> rfl
  | cons event rest ih =>
      rw [List.cons_append]
      cases event with
      | start tag => rw [openTags, openTags, ih]
      | stop tag =>
          cases opened with
          | nil => rfl
          | cons innermost opened =>
              rw [openTags, openTags]
              split
              · exact ih opened
              · rfl
      | _ => rw [openTags_leaf rfl, openTags_leaf rfl, ih]

mutual

/-- A tree leaves open what was open before it. -/
theorem EventTree.openTags_events (tree : EventTree) (opened : List Tag) :
    openTags opened tree.events = some opened := by
  match tree with
  | .leaf event hLeaf =>
      rw [EventTree.events, openTags_leaf hLeaf]
      cases opened <;> rfl
  | .element tag content =>
      rw [EventTree.events, Tag.around, List.cons_append, openTags, openTags_append,
        EventTree.openTags_allEvents content, Option.bind_some, openTags_stop]
      cases opened <;> rfl

/-- Trees leave open what was open before them. -/
theorem EventTree.openTags_allEvents (trees : List EventTree) (opened : List Tag) :
    openTags opened (EventTree.allEvents trees) = some opened := by
  match trees with
  | [] => cases opened <;> rfl
  | tree :: rest =>
      rw [EventTree.allEvents, openTags_append, EventTree.openTags_events tree, Option.bind_some,
        EventTree.openTags_allEvents rest]

end

/-- The events of trees are well nested. -/
theorem wellNested_allEvents (trees : List EventTree) : WellNested (EventTree.allEvents trees) :=
  EventTree.openTags_allEvents trees []

/-- The events of trees, then the end of each open element with the trees that follow it. -/
def closing (trees : List EventTree) : List (Tag × List EventTree) → List Event
  | [] => EventTree.allEvents trees
  | (tag, after) :: outer => EventTree.allEvents trees ++ .stop tag :: closing after outer

theorem closing_leaf {event : Event} (hLeaf : event.isBoundary = false) (trees : List EventTree)
    (outer : List (Tag × List EventTree)) :
    closing (.leaf event hLeaf :: trees) outer = event :: closing trees outer := by
  cases outer <;> rfl

/-- An element that starts is one more that the rest has to close. -/
theorem closing_element (tag : Tag) (content trees : List EventTree)
    (outer : List (Tag × List EventTree)) :
    closing (.element tag content :: trees) outer =
      .start tag :: closing content ((tag, trees) :: outer) := by
  cases outer <;> simp [closing, EventTree.allEvents_cons_element]

/-- Events that end all open elements are the content of the innermost one, its end, what follows it
in the next one, and so on. -/
theorem exists_closing (h : openTags opened events = some []) :
    ∃ (trees : List EventTree) (outer : List (Tag × List EventTree)),
      outer.map Prod.fst = opened ∧ events = closing trees outer := by
  induction events generalizing opened with
  | nil =>
      cases opened with
      | nil => exact ⟨[], [], rfl, rfl⟩
      | cons _ _ => cases h
  | cons event rest ih =>
      cases event with
      | start tag =>
          obtain ⟨content, layers, hTags, hEvents⟩ := ih h
          obtain ⟨⟨_, trees⟩, outer, rfl, rfl, hOuter⟩ := List.map_eq_cons_iff.1 hTags
          rw [hEvents]
          exact ⟨.element _ content :: trees, outer, hOuter, (closing_element ..).symm⟩
      | stop tag =>
          cases opened with
          | nil => cases h
          | cons innermost opened =>
              rw [openTags] at h
              split at h
              · next hTag =>
                obtain ⟨trees, outer, hTags, rfl⟩ := ih h
                exact ⟨[], (tag, trees) :: outer, by simp [hTags, hTag], rfl⟩
              · cases h
      | _ =>
          rw [openTags_leaf rfl] at h
          obtain ⟨trees, outer, hTags, rfl⟩ := ih h
          exact ⟨.leaf _ rfl :: trees, outer, hTags, (closing_leaf rfl ..).symm⟩

end OpenTags

/-- Well-nested events are those of a forest. -/
theorem wellNested_iff {events : List Event} :
    WellNested events ↔ ∃ trees, EventTree.allEvents trees = events := by
  constructor
  · intro h
    obtain ⟨trees, outer, hTags, rfl⟩ := exists_closing h
    obtain rfl := List.map_eq_nil_iff.1 hTags
    exact ⟨trees, rfl⟩
  · rintro ⟨trees, rfl⟩
    exact wellNested_allEvents trees

/-- Behind a start come the events of its content, which are well nested, and then its own end. -/
theorem WellNested.exists_content {before after : List Event} {tag : Tag}
    (h : WellNested (before ++ .start tag :: after)) :
    ∃ content rest, after = EventTree.allEvents content ++ .stop tag :: rest := by
  rw [WellNested, openTags_append] at h
  obtain ⟨opened, -, hOpened⟩ := Option.bind_eq_some_iff.1 h
  rw [openTags] at hOpened
  obtain ⟨content, layers, hTags, hEvents⟩ := exists_closing hOpened
  obtain ⟨⟨_, trees⟩, outer, rfl, rfl, -⟩ := List.map_eq_cons_iff.1 hTags
  exact ⟨content, _, hEvents⟩

/-- Nested events have a forest. -/
theorem Nested.exists_trees {ofItem : Bool} {events : List Event} (h : Nested ofItem events) :
    ∃ trees, EventTree.allEvents trees = events := by
  induction h with
  | nil => exact ⟨[], rfl⟩
  | content hEvent _ ih =>
      obtain ⟨trees, rfl⟩ := ih
      exact ⟨.leaf _ (Event.not_isBoundary_of_isContent hEvent) :: trees, rfl⟩
  | task _ ih =>
      obtain ⟨trees, rfl⟩ := ih
      exact ⟨.leaf _ rfl :: trees, rfl⟩
  | element _ _ _ ihInner ihRest =>
      obtain ⟨content, rfl⟩ := ihInner
      obtain ⟨trees, rfl⟩ := ihRest
      exact ⟨.element _ content :: trees, rfl⟩

/-- The events of a document are well nested. -/
theorem wellNested_events (gfm : Bool) (source : Text) : WellNested (events gfm source) :=
  wellNested_iff.2 (nested_events gfm source).exists_trees

end DirectiveMarkdown.Markdown
