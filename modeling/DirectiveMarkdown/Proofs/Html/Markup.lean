import DirectiveMarkdown.Proofs.Html.Escaping
import DirectiveMarkdown.Proofs.Text.Lines
import DirectiveMarkdown.Proofs.TextMap

/-! Written HTML as a sequence of pieces: characters of text, start tags and end tags. The pieces of
a tree can be read back from what they are written as, one after the other. -/
namespace DirectiveMarkdown

inductive Markup where
  | char (c : Char)
  | start (tag : Text) (properties : TextMap)
  | stop (tag : Text)
  | raw (value : Text)

def Markup.write : Markup → Text
  | .char c => escapeChar c
  | .start tag properties => startTag tag properties
  | .stop tag => endTag tag
  | .raw value => value

mutual

/-- The pieces that a tree is written in. -/
def HtmlNode.markup : HtmlNode → List Markup
  | .root children => HtmlNode.allMarkup children
  | .element tag properties children =>
    if voidElements.contains tag then [.start tag properties]
    else .start tag properties :: HtmlNode.allMarkup children ++ [.stop tag]
  | .text value => value.map .char
  | .raw value => [.raw value]

def HtmlNode.allMarkup : List HtmlNode → List Markup
  | [] => []
  | node :: rest => node.markup ++ HtmlNode.allMarkup rest

end

mutual

/-- A tree is written as its pieces are. -/
theorem HtmlNode.flatMap_markup (node : HtmlNode) :
    node.markup.flatMap Markup.write = node.write := by
  match node with
  | .root children => exact HtmlNode.flatMap_allMarkup children
  | .element tag properties children =>
      have hChildren := HtmlNode.flatMap_allMarkup children
      unfold HtmlNode.markup HtmlNode.write
      split
      · simp [Markup.write]
      · simp [Markup.write, hChildren]
  | .text value => exact List.flatMap_map ..
  | .raw value => simp [HtmlNode.markup, HtmlNode.write, Markup.write]

/-- The pieces of trees are written as the trees are. -/
theorem HtmlNode.flatMap_allMarkup (nodes : List HtmlNode) :
    (HtmlNode.allMarkup nodes).flatMap Markup.write = HtmlNode.writeAll nodes := by
  match nodes with
  | [] => rfl
  | node :: rest =>
      rw [HtmlNode.allMarkup, List.flatMap_append, HtmlNode.flatMap_markup node,
        HtmlNode.flatMap_allMarkup rest, HtmlNode.writeAll]

end

mutual

/-- Every element of a tree satisfies a condition on its tag, its properties and its children, and
nothing in the tree is raw markup. -/
def HtmlNode.everyElement (p : Text → TextMap → List HtmlNode → Bool) : HtmlNode → Bool
  | .root children => HtmlNode.everyElementOf p children
  | .element tag properties children =>
    p tag properties children && HtmlNode.everyElementOf p children
  | .text _ => true
  | .raw _ => false

def HtmlNode.everyElementOf (p : Text → TextMap → List HtmlNode → Bool) : List HtmlNode → Bool
  | [] => true
  | node :: rest => node.everyElement p && HtmlNode.everyElementOf p rest

end

def isNameChar (c : Char) : Bool := c.isAlphanum || c == '-'

/-- Keys that a property may have: ASCII letters, digits and hyphens. -/
def isPropertyKey (key : Text) : Bool := !key.isEmpty && key.all isNameChar

/-- A tag with its properties that can be told from text and from other tags. -/
def isPlainTag (tag : Text) (properties : TextMap) : Bool :=
  isTagName tag && properties.keys.all isPropertyKey

/-- A piece that can be told from others: no raw markup, and tags with plain names and keys. -/
def Markup.isPlain : Markup → Bool
  | .char _ => true
  | .start tag properties => isPlainTag tag properties
  | .stop tag => isTagName tag
  | .raw _ => false

mutual

/-- What holds of every element with its tag and properties holds of every start tag, and what holds
of every tag name of every end tag. -/
theorem HtmlNode.markup_of_everyElement {p : Text → TextMap → List HtmlNode → Bool}
    {q : Markup → Prop} (hChar : ∀ c, q (.char c))
    (hStart : ∀ tag properties children, p tag properties children = true → q (.start tag properties))
    (hStop : ∀ tag properties children, p tag properties children = true → q (.stop tag))
    (node : HtmlNode) (h : node.everyElement p = true) : ∀ piece ∈ node.markup, q piece := by
  match node with
  | .root children =>
      exact HtmlNode.allMarkup_of_everyElementOf hChar hStart hStop children h
  | .element tag properties children =>
      rw [HtmlNode.everyElement, Bool.and_eq_true] at h
      have hChildren := HtmlNode.allMarkup_of_everyElementOf hChar hStart hStop children h.2
      have hOpen := hStart tag properties children h.1
      have hClose := hStop tag properties children h.1
      unfold HtmlNode.markup
      split
      · simpa using hOpen
      · intro piece hMem
        simp only [List.cons_append, List.mem_cons, List.mem_append, List.not_mem_nil,
          or_false] at hMem
        rcases hMem with rfl | hMem | rfl
        · exact hOpen
        · exact hChildren piece hMem
        · exact hClose
  | .text value =>
      intro piece hMem
      obtain ⟨c, -, rfl⟩ := List.mem_map.1 hMem
      exact hChar c
  | .raw value => cases h

/-- What a condition on elements says of their tags holds of all pieces. -/
theorem HtmlNode.allMarkup_of_everyElementOf {p : Text → TextMap → List HtmlNode → Bool}
    {q : Markup → Prop} (hChar : ∀ c, q (.char c))
    (hStart : ∀ tag properties children, p tag properties children = true → q (.start tag properties))
    (hStop : ∀ tag properties children, p tag properties children = true → q (.stop tag))
    (nodes : List HtmlNode) (h : HtmlNode.everyElementOf p nodes = true) :
    ∀ piece ∈ HtmlNode.allMarkup nodes, q piece := by
  match nodes with
  | [] => intro piece hMem; cases hMem
  | node :: rest =>
      rw [HtmlNode.everyElementOf, Bool.and_eq_true] at h
      intro piece hMem
      rcases List.mem_append.1 hMem with hMem | hMem
      · exact HtmlNode.markup_of_everyElement hChar hStart hStop node h.1 piece hMem
      · exact HtmlNode.allMarkup_of_everyElementOf hChar hStart hStop rest h.2 piece hMem

end

namespace Markup

/-- The properties at the start of a text, at most `fuel` of them, and the text after the tag that
they stand in. -/
def properties : Nat → Text → List (Text × Text) × Text
  | fuel + 1, ' ' :: rest =>
    let key := rest.takeWhile isNameChar
    match rest.dropWhile isNameChar with
    | '=' :: '"' :: quoted =>
      let (more, after) := properties fuel ((quoted.dropWhile (· != '"')).drop 1)
      ((key, unescapeHtml (quoted.takeWhile (· != '"'))) :: more, after)
    | after =>
      let (more, after) := properties fuel after
      ((key, []) :: more, after)
  | _, s => ([], s.drop 1)

/-- The first piece of written HTML and the text after it. -/
def read? : Text → Option (Markup × Text)
  | '<' :: '/' :: rest =>
    some (.stop (rest.takeWhile isNameChar), (rest.dropWhile isNameChar).drop 1)
  | '<' :: rest =>
    let (entries, after) := properties rest.length (rest.dropWhile isNameChar)
    some (.start (rest.takeWhile isNameChar) (.ofList entries), after)
  | s => (escapedChar? s).map fun (c, rest) => (.char c, rest)

def readUpTo : Nat → Text → List Markup
  | 0, _ => []
  | fuel + 1, s =>
    match read? s with
    | some (piece, rest) => piece :: readUpTo fuel rest
    | none => []

def readAll (s : Text) : List Markup := readUpTo s.length s

/-- The start of what follows a property: a blank before the next one, or the end of the tag. -/
theorem exists_cons_properties (entries : List (Text × Text)) (rest : Text) :
    ∃ c more, (entries.flatMap fun e => writeProperty e.1 e.2) ++ '>' :: rest = c :: more ∧
      (c = ' ' ∨ c = '>') := by
  cases entries with
  | nil => exact ⟨'>', rest, rfl, .inr rfl⟩
  | cons entry entries =>
      unfold List.flatMap writeProperty
      rw [List.map_cons, List.flatten_cons]
      split
      · exact ⟨' ', _, rfl, .inl rfl⟩
      · exact ⟨' ', _, rfl, .inl rfl⟩

theorem isNameChar_of_mem_tagName {tag : Text} (h : isTagName tag = true) {c : Char} (hMem : c ∈ tag) :
    isNameChar c = true := by
  rw [isTagName, Bool.and_eq_true] at h
  exact List.all_eq_true.1 h.2 c hMem

theorem isNameChar_of_mem_key {key : Text} (h : isPropertyKey key = true) {c : Char} (hMem : c ∈ key) :
    isNameChar c = true := by
  rw [isPropertyKey, Bool.and_eq_true] at h
  exact List.all_eq_true.1 h.2 c hMem

/-- The properties of a tag are read back. -/
theorem properties_write {entries : List (Text × Text)}
    (hKeys : ∀ e ∈ entries, isPropertyKey e.1 = true) {fuel : Nat} (hFuel : entries.length ≤ fuel)
    (rest : Text) :
    properties fuel ((entries.flatMap fun e => writeProperty e.1 e.2) ++ '>' :: rest) =
      (entries, rest) := by
  induction entries generalizing fuel with
  | nil => cases fuel <;> rfl
  | cons entry entries ih =>
      obtain ⟨fuel, rfl⟩ : ∃ fewer, fuel = fewer + 1 := ⟨fuel - 1, by simp at hFuel; omega⟩
      obtain ⟨key, value⟩ := entry
      have hKey := hKeys (key, value) (List.mem_cons_self ..)
      have hChars : ∀ c ∈ key, isNameChar c = true := fun c => isNameChar_of_mem_key hKey
      have hMore : entries.length ≤ fuel := by simpa using hFuel
      have ih := ih (fun e hMem => hKeys e (List.mem_cons_of_mem _ hMem)) hMore
      obtain ⟨c, more, hMore, hC⟩ := exists_cons_properties entries rest
      rw [List.flatMap_cons, List.append_assoc]
      cases value with
      | nil =>
          have hStop : ∀ d ∈ (c :: more).head?, isNameChar d = false := by
            rintro d hd
            cases hd
            rcases hC with rfl | rfl <;> decide
          rw [hMore] at ih ⊢
          have hWritten : writeProperty key [] ++ c :: more = ' ' :: (key ++ c :: more) := rfl
          rw [hWritten, properties]
          dsimp only
          rw [Text.takeWhile_append_stop hChars hStop, Text.dropWhile_append_stop hChars hStop]
          split
          · next hQuoted =>
              rcases hC with rfl | rfl <;> simp at hQuoted
          · rw [ih]
      | cons first value =>
          have hValue : ∀ d ∈ escapeHtml (first :: value), (d != '"') = true := by
            intro d hd
            simpa using (not_delimiter_of_mem_escapeHtml hd).2.2.1
          have hWritten : writeProperty key (first :: value) ++
                ((entries.flatMap fun e => writeProperty e.1 e.2) ++ '>' :: rest) =
              ' ' :: (key ++ '=' :: '"' :: (escapeHtml (first :: value) ++
                '"' :: ((entries.flatMap fun e => writeProperty e.1 e.2) ++ '>' :: rest))) := by
            simp [writeProperty, text]
          rw [hWritten, properties, Text.takeWhile_append_stop hChars (by rintro d ⟨⟩; decide),
            Text.dropWhile_append_stop hChars (by rintro d ⟨⟩; decide)]
          split
          · next quoted hQuoted =>
              obtain rfl := (List.cons.inj (List.cons.inj hQuoted).2).2
              rw [Text.takeWhile_append_stop hValue (by rintro d ⟨⟩; decide),
                Text.dropWhile_append_stop hValue (by rintro d ⟨⟩; decide), List.drop_one,
                List.tail_cons, ih, unescapeHtml_escapeHtml]
          · next hOther => exact absurd rfl (hOther _)

theorem length_le_length_properties (entries : List (Text × Text)) :
    entries.length ≤ (entries.flatMap fun e => writeProperty e.1 e.2).length := by
  induction entries with
  | nil => exact Nat.zero_le _
  | cons entry entries ih =>
      have hEntry : 0 < (writeProperty entry.1 entry.2).length := by
        unfold writeProperty
        split <;> simp
      rw [List.flatMap_cons, List.length_append, List.length_cons]
      omega

theorem ofList_entries (m : TextMap) : TextMap.ofList m.entries = m :=
  TextMap.foldl_insert_entries m

/-- A tag name does not start with the slash of an end tag. -/
theorem exists_cons_of_isTagName {tag : Text} (h : isTagName tag = true) :
    ∃ c rest, tag = c :: rest ∧ c ≠ '/' := by
  cases tag with
  | nil => simp [isTagName] at h
  | cons c rest =>
      refine ⟨c, rest, rfl, ?_⟩
      rintro rfl
      revert h
      simp only [isTagName, List.head?_cons, Option.map_some, Option.getD_some]
      intro h
      simp only [Bool.and_eq_true] at h
      exact absurd h.1 (by decide)

/-- A piece is read back, whatever follows it. -/
theorem read?_write {piece : Markup} (h : piece.isPlain = true) (rest : Text) :
    read? (piece.write ++ rest) = some (piece, rest) := by
  cases piece with
  | char c =>
      have hRead := escapedChar?_append c rest
      have hLess : ∀ d ∈ (escapeChar c).head?, d ≠ '<' := fun d hd =>
        (not_delimiter_of_mem_escapeChar (List.mem_of_mem_head? hd)).1
      rw [write]
      cases hChar : escapeChar c with
      | nil => exact absurd hChar (escapeChar_ne_nil c)
      | cons d more =>
          rw [hChar] at hRead
          have hD : d ≠ '<' := hLess d (by rw [hChar]; rfl)
          rw [List.cons_append] at hRead ⊢
          unfold read?
          split
          · next hEq => exact absurd (List.cons.inj hEq).1 hD
          · next hEq => exact absurd (List.cons.inj hEq).1 hD
          · rw [hRead]
            rfl
  | start tag properties =>
      simp only [isPlain, isPlainTag, Bool.and_eq_true] at h
      obtain ⟨hTag, hKeys⟩ := h
      have hChars : ∀ c ∈ tag, isNameChar c = true := fun c => isNameChar_of_mem_tagName hTag
      obtain ⟨first, name, hName, hSlash⟩ := exists_cons_of_isTagName hTag
      obtain ⟨c, more, hMore, hC⟩ := exists_cons_properties properties.entries rest
      have hStop : ∀ d ∈ (c :: more).head?, isNameChar d = false := by
        rintro d hd
        cases hd
        rcases hC with rfl | rfl <;> decide
      have hWritten : startTag tag properties ++ rest = '<' :: (tag ++ (c :: more)) := by
        rw [← hMore]
        simp [startTag]
      rw [write, hWritten]
      unfold read?
      split
      · next hEq =>
          rw [hName, List.cons_append] at hEq
          exact absurd (List.cons.inj (List.cons.inj hEq).2).1 hSlash
      · next hEq =>
          obtain rfl := (List.cons.inj hEq).2
          have hEntries : ∀ e ∈ properties.entries, isPropertyKey e.1 = true := by
            intro e hMem
            exact List.all_eq_true.1 hKeys e.1 (List.mem_map_of_mem hMem)
          have hLength := congrArg List.length hMore
          rw [List.length_append] at hLength
          have hFuel : properties.entries.length ≤ (tag ++ (c :: more)).length := by
            have := length_le_length_properties properties.entries
            rw [List.length_append]
            omega
          rw [Text.takeWhile_append_stop hChars hStop, Text.dropWhile_append_stop hChars hStop,
            ← hMore, properties_write hEntries (hMore ▸ hFuel)]
          dsimp only
          rw [ofList_entries]
      · next hEnd hStart => exact absurd rfl (hStart _)
  | stop tag =>
      have hChars : ∀ c ∈ tag, isNameChar c = true := fun c => isNameChar_of_mem_tagName h
      have hWritten : endTag tag ++ rest = '<' :: '/' :: (tag ++ '>' :: rest) := by
        simp [endTag, text]
      rw [write, hWritten, read?, Text.takeWhile_append_stop hChars (by rintro d ⟨⟩; decide),
        Text.dropWhile_append_stop hChars (by rintro d ⟨⟩; decide)]
      rfl
  | raw value => cases h

theorem write_ne_nil {piece : Markup} (h : piece.isPlain = true) : piece.write ≠ [] := by
  cases piece with
  | char c => exact escapeChar_ne_nil c
  | start tag properties => exact List.cons_ne_nil _ _
  | stop tag => exact List.cons_ne_nil _ _
  | raw value => cases h

/-- Written pieces are read again, given fuel for every character. -/
theorem readUpTo_write {pieces : List Markup} (h : ∀ piece ∈ pieces, piece.isPlain = true)
    {fuel : Nat} (hFuel : (pieces.flatMap write).length ≤ fuel) :
    readUpTo fuel (pieces.flatMap write) = pieces := by
  induction pieces generalizing fuel with
  | nil =>
      cases fuel <;> rfl
  | cons piece pieces ih =>
      have hPiece := h piece (List.mem_cons_self ..)
      have hLength := List.length_pos_iff.2 (write_ne_nil hPiece)
      rw [List.flatMap_cons, List.length_append] at hFuel
      obtain ⟨fuel, rfl⟩ : ∃ fewer, fuel = fewer + 1 := ⟨fuel - 1, by omega⟩
      rw [List.flatMap_cons, readUpTo, read?_write hPiece]
      dsimp only
      rw [ih (fun other hMem => h other (List.mem_cons_of_mem _ hMem)) (by omega)]

/-- The pieces of written HTML are those it was written in. -/
theorem readAll_write {pieces : List Markup} (h : ∀ piece ∈ pieces, piece.isPlain = true) :
    readAll (pieces.flatMap write) = pieces :=
  readUpTo_write h (Nat.le_refl _)

def tag? : Markup → Option Text
  | .start tag _ | .stop tag => some tag
  | .char _ | .raw _ => none

/-- A written property holds no angle bracket, whatever its value. -/
theorem less_not_mem_writeProperty {key : Text} (h : isPropertyKey key = true) (value : Text) :
    '<' ∉ writeProperty key value := by
  have hKey : '<' ∉ key := fun hMem => absurd (isNameChar_of_mem_key h hMem) (by decide)
  have hValue : '<' ∉ escapeHtml value := fun hMem => (not_delimiter_of_mem_escapeHtml hMem).1 rfl
  unfold writeProperty
  split <;> simp [hKey, hValue, text]

/-- A piece has the character that opens tags only where it is a tag, and there as its first one. -/
theorem eq_nil_of_write_eq {piece : Markup} (h : piece.isPlain = true) {before after : Text}
    (hWrite : piece.write = before ++ '<' :: after) : before = [] ∧ piece.tag?.isSome = true := by
  have hTail : ∀ {tail : Text}, '<' ∉ tail → '<' :: tail = before ++ '<' :: after → before = [] := by
    intro tail hNot hEq
    cases before with
    | nil => rfl
    | cons c before =>
        refine absurd ?_ hNot
        rw [(List.cons.inj hEq).2]
        exact List.mem_append_right _ (List.mem_cons_self ..)
  have hName : ∀ {tag : Text}, isTagName tag = true → '<' ∉ tag := fun hTag hMem =>
    absurd (isNameChar_of_mem_tagName hTag hMem) (by decide)
  cases piece with
  | char c =>
      have hMem : '<' ∈ escapeChar c := by
        rw [show escapeChar c = _ from hWrite]
        exact List.mem_append_right _ (List.mem_cons_self ..)
      exact absurd rfl (not_delimiter_of_mem_escapeChar hMem).1
  | start tag properties =>
      simp only [isPlain, isPlainTag, Bool.and_eq_true] at h
      obtain ⟨hTag, hKeys⟩ := h
      have hWritten : '<' :: (tag ++ (properties.entries.flatMap fun e => writeProperty e.1 e.2) ++
          ['>']) = before ++ '<' :: after := hWrite
      refine ⟨hTail ?_ hWritten, rfl⟩
      simp only [List.mem_append, List.mem_flatMap, not_or]
      refine ⟨⟨hName hTag, ?_⟩, by decide⟩
      rintro ⟨entry, hEntry, hMem⟩
      exact less_not_mem_writeProperty
        (List.all_eq_true.1 hKeys entry.1 (List.mem_map_of_mem hEntry)) entry.2 hMem
  | stop tag =>
      have hWritten : '<' :: '/' :: (tag ++ ['>']) = before ++ '<' :: after := hWrite
      refine ⟨hTail ?_ hWritten, rfl⟩
      simp [hName h]
  | raw value => cases h

/-- In written pieces the character that opens tags stands only where one of the pieces is a tag and
starts there. -/
theorem exists_tag_of_flatMap_write {pieces : List Markup}
    (h : ∀ piece ∈ pieces, piece.isPlain = true) {before after : Text}
    (hWrite : pieces.flatMap write = before ++ '<' :: after) :
    ∃ earlier piece later tag, pieces = earlier ++ piece :: later ∧
      earlier.flatMap write = before ∧ piece.tag? = some tag := by
  induction pieces generalizing before with
  | nil => simp at hWrite
  | cons piece pieces ih =>
      have hLater : ∀ rest : Text, pieces.flatMap write = rest ++ '<' :: after →
          before = piece.write ++ rest → ∃ earlier other later tag,
            piece :: pieces = earlier ++ other :: later ∧ earlier.flatMap write = before ∧
              other.tag? = some tag := by
        intro rest hRest hBefore
        obtain ⟨earlier, other, later, tag, hPieces, hEarlier, hTag⟩ :=
          ih (fun other hMem => h other (List.mem_cons_of_mem _ hMem)) hRest
        refine ⟨piece :: earlier, other, later, tag, ?_, ?_, hTag⟩
        · rw [hPieces, List.cons_append]
        · rw [List.flatMap_cons, hEarlier, hBefore]
      rw [List.flatMap_cons, List.append_eq_append_iff] at hWrite
      rcases hWrite with ⟨rest, hBefore, hRest⟩ | ⟨more, hPiece, hRest⟩
      · exact hLater rest hRest hBefore
      · cases more with
        | nil => exact hLater [] hRest.symm (by simp [hPiece])
        | cons c more =>
            obtain ⟨rfl, -⟩ := List.cons.inj hRest
            obtain ⟨rfl, hTag⟩ := eq_nil_of_write_eq (h piece (List.mem_cons_self ..)) hPiece
            obtain ⟨tag, hTag⟩ := Option.isSome_iff_exists.1 hTag
            exact ⟨[], piece, pieces, tag, rfl, rfl, hTag⟩

end Markup

end DirectiveMarkdown
