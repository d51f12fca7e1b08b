import DirectiveMarkdown.Directive.BlockLine
import DirectiveMarkdown.Directive.Inline

/-! What is read of a directive stands in the text that it is read from, in the same order. -/
namespace DirectiveMarkdown

/-- A delimited piece is its content, the closing delimiter and the text after it. -/
theorem eq_of_delimitedBody? {opening closing : Char} {depth : Nat} {s content after : Text}
    (h : delimitedBody? opening closing depth s = some (content, after)) :
    s = content ++ closing :: after := by
  induction s generalizing depth content with
  | nil => cases h
  | cons c rest ih =>
      unfold delimitedBody? at h
      split at h
      · obtain ⟨⟨read, more⟩, hRead, hEq⟩ := Option.map_eq_some_iff.1 h
        cases hEq
        rw [ih hRead, List.cons_append]
      · split at h
        · next hClosing =>
            split at h
            · cases h
              rw [hClosing, List.nil_append]
            · obtain ⟨⟨read, more⟩, hRead, hEq⟩ := Option.map_eq_some_iff.1 h
              cases hEq
              rw [ih hRead, List.cons_append]
        · obtain ⟨⟨read, more⟩, hRead, hEq⟩ := Option.map_eq_some_iff.1 h
          cases hEq
          rw [ih hRead, List.cons_append]

theorem delimited_sublist (opening closing : Char) (s : Text) :
    (delimited opening closing s).1.Sublist s ∧ (delimited opening closing s).2.Sublist s := by
  have hNone : ([] : Text).Sublist s ∧ s.Sublist s := ⟨List.nil_sublist _, List.Sublist.refl _⟩
  unfold delimited
  split
  · next c rest =>
      split
      · cases hRead : delimitedBody? opening closing 0 rest with
        | none => exact hNone
        | some read =>
            obtain ⟨content, after⟩ := read
            rw [eq_of_delimitedBody? hRead]
            refine ⟨.cons _ (List.sublist_append_left ..), .cons _ ?_⟩
            exact (List.sublist_cons_self ..).trans (List.sublist_append_right ..)
      · exact hNone
  · exact ⟨List.Sublist.refl _, List.Sublist.refl _⟩

theorem Arguments.label_addEntry (arguments : Arguments) (entry : Entry) :
    (arguments.addEntry entry).label = arguments.label := by
  cases entry <;> rfl

/-- The label is taken as it is written. -/
theorem Arguments.label_read (label attributeList : Text) :
    (Arguments.read label attributeList).label = label := by
  unfold Arguments.read
  generalize Arguments.entries (Text.trim attributeList) = entries
  have hFold : ∀ arguments : Arguments,
      (entries.foldl Arguments.addEntry arguments).label = arguments.label := by
    induction entries with
    | nil => exact fun _ => rfl
    | cons entry entries ih =>
        intro arguments
        rw [List.foldl_cons, ih, Arguments.label_addEntry]
  exact hFold { label }

/-- The label of a directive stands in the text that is read. -/
theorem label_sublist_of_readDirectiveBody? {s afterName after : Text} {body : DirectiveBody}
    (h : readDirectiveBody? s = some (body, afterName, after)) :
    body.arguments.label.Sublist s := by
  unfold readDirectiveBody? at h
  dsimp only at h
  split at h
  · cases h
    rw [Arguments.label_read]
    exact (delimited_sublist ..).1.trans (List.dropWhile_sublist _)
  · cases h

/-- The name of a directive that is read is a proper one. -/
theorem isDirectiveName_of_readDirectiveBody? {s afterName after : Text} {body : DirectiveBody}
    (h : readDirectiveBody? s = some (body, afterName, after)) :
    isDirectiveName body.name = true := by
  unfold readDirectiveBody? at h
  dsimp only at h
  split at h
  · next hName =>
      cases h
      exact hName
  · cases h

def BlockLine.body? : BlockLine → Option DirectiveBody
  | .leaf body => some body
  | .opening _ body => some body
  | .closing _ => none

theorem isPrefix_trimEnd (s : Text) : Text.trimEnd s <+: s := by
  rw [Text.trimEnd, ← List.reverse_suffix, List.reverse_reverse]
  exact List.dropWhile_suffix _

theorem trimEnd_sublist (s : Text) : (Text.trimEnd s).Sublist s := (isPrefix_trimEnd s).sublist

/-- A line that starts with neither a space nor a colon is no directive. -/
theorem BlockLine.read?_of_head {c : Char} (hSpace : c ≠ ' ') (hColon : c ≠ ':') (rest : Text) :
    BlockLine.read? (c :: rest) = none := by
  have hIndent : (c :: rest).takeWhile (· == ' ') = [] :=
    List.takeWhile_cons_of_neg (by simp [hSpace])
  have hColons : (Text.trimEnd (c :: rest)).takeWhile (· == ':') = [] := by
    have hPrefix := isPrefix_trimEnd (c :: rest)
    cases hTrim : Text.trimEnd (c :: rest) with
    | nil => rfl
    | cons d more =>
        rw [hTrim] at hPrefix
        obtain ⟨rfl, -⟩ := List.cons_prefix_cons.1 hPrefix
        exact List.takeWhile_cons_of_neg (by simp [hColon])
  rw [BlockLine.read?]
  simp only [hIndent, List.length_nil, List.drop_zero, hColons]
  rfl

/-- A line that starts with no more than one colon is no directive. -/
theorem BlockLine.read?_of_colon {c : Char} (hColon : c ≠ ':') (rest : Text) :
    BlockLine.read? (':' :: c :: rest) = none := by
  have hIndent : (':' :: c :: rest).takeWhile (· == ' ') = [] := rfl
  have hColons : ((Text.trimEnd (':' :: c :: rest)).takeWhile (· == ':')).length < 2 := by
    have hPrefix := isPrefix_trimEnd (':' :: c :: rest)
    rcases hTrim : Text.trimEnd (':' :: c :: rest) with _ | ⟨d, _ | ⟨e, more⟩⟩
    · exact Nat.zero_lt_two
    · exact Nat.lt_of_le_of_lt (List.takeWhile_sublist _).length_le Nat.one_lt_two
    · rw [hTrim] at hPrefix
      obtain ⟨rfl, hMore⟩ := List.cons_prefix_cons.1 hPrefix
      obtain ⟨rfl, -⟩ := List.cons_prefix_cons.1 hMore
      rw [List.takeWhile_cons_of_pos rfl, List.takeWhile_cons_of_neg (by simp [hColon])]
      exact Nat.one_lt_two
  rw [BlockLine.read?]
  simp only [hIndent, List.length_nil, List.drop_zero, if_pos hColons]
  rfl

/-- The directive of a line is read from a part of the line. -/
theorem BlockLine.exists_readDirectiveBody? {line : Text} {directive : BlockLine}
    (h : BlockLine.read? line = some directive) {body : DirectiveBody}
    (hBody : directive.body? = some body) :
    ∃ s afterName after, s.Sublist line ∧ readDirectiveBody? s = some (body, afterName, after) := by
  unfold BlockLine.read? at h
  dsimp only at h
  split at h
  · cases h
  · split at h
    · cases h
    · split at h
      · split at h
        · cases h
          cases hBody
        · cases h
      · obtain ⟨⟨read, afterName, after⟩, hRead, hLine⟩ := Option.bind_eq_some_iff.1 h
        have hSub : ∀ indent colons : Nat,
            ((Text.trimEnd (line.drop indent)).drop colons).Sublist line := fun _ _ =>
          (List.drop_sublist ..).trans ((trimEnd_sublist _).trans (List.drop_sublist ..))
        have hEq : read = body := by
          split at hLine
          · split at hLine <;> cases hLine <;> exact Option.some.inj hBody
          · cases hLine
        exact ⟨_, afterName, after, hSub _ _, hEq ▸ hRead⟩

/-- The label of a directive stands in its line. -/
theorem BlockLine.label_sublist {line : Text} {directive : BlockLine}
    (h : BlockLine.read? line = some directive) {body : DirectiveBody}
    (hBody : directive.body? = some body) : body.arguments.label.Sublist line := by
  obtain ⟨s, afterName, after, hSub, hRead⟩ := exists_readDirectiveBody? h hBody
  exact (label_sublist_of_readDirectiveBody? hRead).trans hSub

namespace InlineDirective

/-- A directive in running text is one that the reader of directives finds there. -/
theorem exists_readDirectiveBody?_of_readAt? {s written after : Text} {body : DirectiveBody}
    (h : readAt? s = some (body, written, after)) :
    ∃ afterName, readDirectiveBody? s = some (body, afterName, after) := by
  unfold readAt? at h
  split at h
  · obtain ⟨⟨read, afterName, rest⟩, hRead, hFound⟩ := Option.bind_eq_some_iff.1 h
    dsimp only at hFound
    split at hFound
    · cases hFound
      exact ⟨afterName, hRead⟩
    · cases hFound
  · cases h

theorem after_sublist_of_readDirectiveBody? {s afterName after : Text} {body : DirectiveBody}
    (h : readDirectiveBody? s = some (body, afterName, after)) : after.Sublist s := by
  unfold readDirectiveBody? at h
  dsimp only at h
  split at h
  · cases h
    exact (delimited_sublist ..).2.trans
      ((delimited_sublist ..).2.trans (List.dropWhile_sublist _))
  · cases h

/-- The parts of a text around the directive that is found in it stand in the text, and so does its
label after a colon. -/
theorem find?_sublist {previous : Option Char} {s : Text} {found : InlineDirective}
    (h : find? previous s = some found) :
    found.before.Sublist s ∧ (':' :: found.body.arguments.label).Sublist s ∧
      found.after.Sublist s := by
  induction s generalizing previous found with
  | nil => cases h
  | cons c rest ih =>
      unfold find? at h
      split at h
      · next body written after hRead =>
          cases h
          split at hRead
          · next hColon =>
              obtain ⟨afterName, hRead⟩ := exists_readDirectiveBody?_of_readAt? hRead
              rw [hColon.1]
              exact ⟨List.nil_sublist _, (label_sublist_of_readDirectiveBody? hRead).cons_cons _,
                (after_sublist_of_readDirectiveBody? hRead).cons _⟩
          · cases hRead
      · obtain ⟨more, hMore, rfl⟩ := Option.map_eq_some_iff.1 h
        obtain ⟨hBefore, hLabel, hAfter⟩ := ih hMore
        exact ⟨hBefore.cons_cons _, hLabel.cons _, hAfter.cons _⟩

theorem isDirectiveName_of_find? {previous : Option Char} {s : Text} {found : InlineDirective}
    (h : find? previous s = some found) : isDirectiveName found.body.name = true := by
  induction s generalizing previous found with
  | nil => cases h
  | cons c rest ih =>
      unfold find? at h
      split at h
      · next body written after hRead =>
          cases h
          split at hRead
          · obtain ⟨afterName, hRead⟩ := exists_readDirectiveBody?_of_readAt? hRead
            exact isDirectiveName_of_readDirectiveBody? hRead
          · cases hRead
      · obtain ⟨more, hMore, rfl⟩ := Option.map_eq_some_iff.1 h
        have hName : isDirectiveName more.body.name = true := ih hMore
        exact hName

end InlineDirective

end DirectiveMarkdown
