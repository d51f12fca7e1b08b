import DirectiveMarkdown.Proofs.Markdown.LineReaders

/-! How a line opens containers. It opens them one after the other, each inside the one before, and goes
on behind their marks. -/
namespace DirectiveMarkdown.Markdown.Structure

/-- One container is opened inside the open ones: a block quote, an item that starts a list, or an item
that goes on with the list that waits for one. -/
inductive OpensOne (state : Structure) : Structure → Prop where
  | quote (start : Nat) :
    OpensOne state { state.beginBlock with frames := .quote start [] :: state.beginBlock.frames }
  | newList (mark : Char) (first : Option Nat) (start indent : Nat) (task : Option Bool) :
    OpensOne state { state.beginBlock with
      blank := false
      frames := .item ⟨mark, first, true, []⟩ start indent task [] :: state.beginBlock.frames }
  | nextItem {list : OpenList} (hWaiting : state.waiting = some list) (tight : Bool)
    (start indent : Nat) (task : Option Bool) :
    OpensOne state { state with
      waiting := none
      blank := false
      frames := .item { list with tight } start indent task [] :: state.frames }

/-- Any number of containers are opened, the last of them perhaps an item without content. -/
inductive Opens : Structure → Structure → Prop where
  | refl (state : Structure) : Opens state state
  | emptyItem {state next : Structure} (hNext : state.OpensOne next) :
    Opens state { next with emptyItem := true }
  | head {state next last : Structure} (hNext : state.OpensOne next) (hLast : Opens next last) :
    Opens state last

/-- A line opens containers, and leaves a place further on in it. -/
theorem opens_openContainers (gfm : Bool) (line : SourceLine) (fuel : Nat) (state : Structure)
    (cursor : Cursor) :
    state.Opens (openContainers gfm line fuel state cursor).1 ∧
      (openContainers gfm line fuel state cursor).2.1.rest.Sublist cursor.rest := by
  induction fuel generalizing state cursor with
  | zero => exact ⟨.refl state, List.Sublist.refl _⟩
  | succ fuel ih =>
      have hInner := Cursor.skip_sublist 4 cursor
      unfold Structure.openContainers
      split
      rename_i outerIndent inner hSkip
      rw [hSkip] at hInner
      split
      · exact ⟨.refl state, List.Sublist.refl _⟩
      split
      · next marker _ =>
          extract_lets after empty width
          have hSpaced := (Cursor.skip_sublist 1 after).trans
            ((Cursor.advance_sublist marker.width inner).trans hInner)
          split
          rename_i passed spaced hSkipOne
          rw [hSkipOne] at hSpaced
          have hPadded := (Cursor.skip_sublist 4 spaced).trans hSpaced
          split
          rename_i more padded hSkipMore
          rw [hSkipMore] at hPadded
          split
          rename_i indent content hContent
          have hContent : content.rest.Sublist cursor.rest := by
            split at hContent
            · cases hContent
              exact hSpaced
            · cases hContent
              exact hPadded
          split
          rename_i task place hTask
          have hPlace : place.rest.Sublist cursor.rest := by
            split at hTask
            · next hRead =>
                cases hTask
                exact (readTask_sublist hRead).trans hContent
            · cases hTask
              exact hContent
          split
          rename_i list opened hList
          extract_lets next
          have hNext : state.OpensOne next := by
            split at hList
            · next hWaiting =>
                split at hList
                · cases hList
                  exact .nextItem hWaiting _ _ _ _
                · cases hList
                  exact .newList _ _ _ _ _
            · cases hList
              exact .newList _ _ _ _ _
          split
          · exact ⟨.emptyItem hNext, hPlace⟩
          · obtain ⟨hOpens, hRest⟩ := ih next place
            exact ⟨.head hNext hOpens, hRest.trans hPlace⟩
      · split
        · extract_lets start
          obtain ⟨hOpens, hRest⟩ := ih
            { state.beginBlock with frames := .quote start [] :: state.beginBlock.frames }
            ((inner.advance 1).skip 1).2
          exact ⟨.head (.quote start) hOpens, hRest.trans
            ((Cursor.skip_sublist 1 _).trans ((Cursor.advance_sublist 1 inner).trans hInner))⟩
        · exact ⟨.refl state, List.Sublist.refl _⟩

end DirectiveMarkdown.Markdown.Structure
