import DirectiveMarkdown.Markdown.RawHtml
import DirectiveMarkdown.Proofs.Html.Escaping
import DirectiveMarkdown.Proofs.Text.Lines
import DirectiveMarkdown.Rule.Video

/-! The markup that embeds a video is let through as raw HTML, so only escaping keeps the title and the address of
the video in their places. Neither can end its place early, whatever characters it holds. -/
namespace DirectiveMarkdown

/-- Where a reader of HTML is: between tags, in a tag, or in a quoted value in a tag. -/
inductive TagReader where
  | content
  | tag
  | value
deriving DecidableEq

namespace TagReader

/-- Where the reader is after one more character. -/
def next : TagReader → Char → TagReader
  | content, c => if c = '<' then tag else content
  | tag, c => if c = '>' then content else if c = '"' then value else tag
  | value, c => if c = '"' then tag else value

/-- The characters that stand in tags, brackets and quotes included, without the values between quotes. -/
def tagText : TagReader → Text → Text
  | _, [] => []
  | reader, c :: s =>
    if reader = tag ∨ reader.next c = tag then c :: tagText (reader.next c) s
    else tagText (reader.next c) s

/-- A text that does not move a reader who is not in a tag shows nothing. -/
theorem tagText_append {reader : TagReader} (hReader : reader ≠ tag) {s : Text}
    (h : ∀ c ∈ s, reader.next c = reader) (rest : Text) :
    tagText reader (s ++ rest) = tagText reader rest := by
  induction s with
  | nil => rfl
  | cons c s ih =>
      obtain ⟨hStays, hRest⟩ := List.forall_mem_cons.1 h
      rw [List.cons_append, tagText, hStays, if_neg (by simp [hReader]), ih hRest]

/-- Escaped text between tags starts no tag. -/
theorem tagText_content_escapeHtml (s rest : Text) :
    tagText content (escapeHtml s ++ rest) = tagText content rest := by
  refine tagText_append (by decide) (fun c hMem => ?_) rest
  exact if_neg (not_delimiter_of_mem_escapeHtml hMem).1

/-- An escaped value does not end its quotes. -/
theorem tagText_value_escapeHtml (s rest : Text) :
    tagText value (escapeHtml s ++ rest) = tagText value rest := by
  refine tagText_append (by decide) (fun c hMem => ?_) rest
  exact if_neg (not_delimiter_of_mem_escapeHtml hMem).2.2.1

end TagReader

/-- The tags of HTML in order, each with its name and the names of its attributes in order. -/
def tagsOf (s : Text) : List (Text × List Text) :=
  (Text.splitOn '<' (TagReader.content.tagText s)).tail.map fun tag =>
    let words := Text.splitOn ' ' (tag.takeWhile (· != '>'))
    (words.headD [], words.tail.map fun word => word.takeWhile (· != '='))

namespace Markdown

/-- What starts a text and has no mark in it starts what stands before the mark. -/
theorem prefix_of_prefix_append_cons {s start rest : Text} {mark : Char} (hMark : mark ∉ start)
    (h : start <+: s ++ mark :: rest) : start <+: s := by
  have hUpTo : s ++ [mark] <+: s ++ mark :: rest := ⟨rest, by simp⟩
  rcases List.prefix_or_prefix_of_prefix h hUpTo with hShort | hLong
  · rcases List.prefix_concat_iff.1 hShort with rfl | hPrefix
    · exact absurd (List.mem_append_right _ (List.mem_singleton.2 rfl)) hMark
    · exact hPrefix
  · exact absurd (hLong.subset (List.mem_append_right _ (List.mem_singleton.2 rfl))) hMark

/-- What is sought is not found in a text that lacks one of its characters, and not across its end if it lacks
the next one. -/
theorem after?_append {sought s rest : Text} {lacking mark : Char} (hLacking : lacking ∈ sought)
    (hText : lacking ∉ s) (hMark : mark ∉ sought) :
    after? sought (s ++ mark :: rest) = after? sought (mark :: rest) := by
  induction s with
  | nil => rfl
  | cons c s ih =>
      have hNot : ¬sought.isPrefixOf (c :: s ++ mark :: rest) = true := by
        rw [List.isPrefixOf_iff_prefix]
        exact fun hPrefix =>
          hText ((prefix_of_prefix_append_cons hMark hPrefix).subset hLacking)
      rw [List.cons_append] at hNot ⊢
      rw [after?, if_neg hNot, ih fun hMem => hText (List.mem_cons_of_mem _ hMem)]

end Markdown

namespace Video

open Markdown (after? after?_append)

def titleTag : Text := text "<div class=\"video-plugin-title\">"

/-- The text that is shown as the title: up to the next tag, with escapes undone. -/
def shownTitle? (fragment : Text) : Option Text :=
  (after? titleTag fragment).map fun rest => unescapeHtml (rest.takeWhile (· != '<'))

/-- The address that is played: the value of the attribute up to the next quote, with escapes undone. -/
def shownAddress? (fragment : Text) : Option Text :=
  (after? (text " src=\"") fragment).map fun rest => unescapeHtml (rest.takeWhile (· != '"'))

def opening : Text := text "<div class=\"video-plugin-div\">" ++ titleTag

/-- What stands between the title and the address, and what stands after the address. -/
def surroundings? : VideoSource → Option (Text × Text)
  | .youtube =>
    some (text "</div>" ++ text "<iframe src=\"", text "\"></iframe>" ++ text "</div>")
  | .local =>
    some (text "</div>" ++ text "<video controls><source src=\"",
      text "\" type=\"video/mp4\"></video>" ++ text "</div>")
  | .unspecified | .unknown _ => none

/-- A fragment has its title and its address in two places of a fixed text. -/
theorem fragment?_eq (video : Video) : video.fragment? =
    (surroundings? video.source).map fun (between, closing) =>
      opening ++ (escapeHtml video.title ++ (between ++ (escapeHtml video.src ++ closing))) := by
  have hOpening : text "<div class=\"video-plugin-div\"><div class=\"video-plugin-title\">" = opening := rfl
  obtain ⟨src, title, source⟩ := video
  cases source <;>
    simp only [fragment?, player?, surroundings?, hOpening, Option.map_some, Option.map_none,
      List.append_assoc]

section Surroundings

variable {source : VideoSource} {between closing : Text}
  (h : surroundings? source = some (between, closing))

include h

/-- The title is followed by a tag, and the address by the quote that ends it. -/
theorem exists_surroundings : (∃ more, between = '<' :: more) ∧ ∃ more, closing = '"' :: more := by
  cases source <;> cases h <;> exact ⟨⟨_, rfl⟩, _, rfl⟩

/-- The first attribute with an address after the title is that of the video. -/
theorem after?_between (rest : Text) : after? (text " src=\"") (between ++ rest) = some rest := by
  cases source <;> cases h <;> rfl

/-- Between title and address there is nothing but tags, up to a value. -/
theorem tagText_between (rest : Text) :
    TagReader.content.tagText (between ++ rest) = between ++ TagReader.value.tagText rest := by
  cases source <;> cases h <;> rfl

/-- The tags of a fragment do not depend on the title and the address. -/
theorem tagText_fragment (title src : Text) :
    TagReader.content.tagText
        (opening ++ (escapeHtml title ++ (between ++ (escapeHtml src ++ closing)))) =
      TagReader.content.tagText opening ++ (between ++ TagReader.value.tagText closing) := by
  have hOpening (rest : Text) : TagReader.content.tagText (opening ++ rest) =
      TagReader.content.tagText opening ++ TagReader.content.tagText rest := rfl
  rw [hOpening, TagReader.tagText_content_escapeHtml, tagText_between h,
    TagReader.tagText_value_escapeHtml]

/-- The title is read back from its place, whatever characters it has. -/
theorem shownTitle?_fragment (title src : Text) :
    shownTitle? (opening ++ (escapeHtml title ++ (between ++ (escapeHtml src ++ closing)))) =
      some title := by
  obtain ⟨⟨more, rfl⟩, -⟩ := exists_surroundings h
  have hAfter (rest : Text) : after? titleTag (opening ++ rest) = some rest := rfl
  have hTitle : ∀ c ∈ escapeHtml title, (c != '<') = true := fun c hMem => by
    simpa using (not_delimiter_of_mem_escapeHtml hMem).1
  rw [shownTitle?, hAfter, Option.map_some, Text.takeWhile_append_stop hTitle (by rintro d ⟨⟩; decide),
    unescapeHtml_escapeHtml]

/-- The address is read back from its place, whatever characters it and the title have. -/
theorem shownAddress?_fragment (title src : Text) :
    shownAddress? (opening ++ (escapeHtml title ++ (between ++ (escapeHtml src ++ closing)))) =
      some src := by
  have hAfter := after?_between h (escapeHtml src ++ closing)
  obtain ⟨⟨more, rfl⟩, ⟨last, rfl⟩⟩ := exists_surroundings h
  have hOpening (rest : Text) : after? (text " src=\"") (opening ++ rest) =
      after? (text " src=\"") rest := rfl
  have hQuote : '"' ∉ escapeHtml title := fun hMem => (not_delimiter_of_mem_escapeHtml hMem).2.2.1 rfl
  have hAddress : ∀ c ∈ escapeHtml src, (c != '"') = true := fun c hMem => by
    simpa using (not_delimiter_of_mem_escapeHtml hMem).2.2.1
  rw [shownAddress?, hOpening, List.cons_append, after?_append (by decide) hQuote (by decide),
    ← List.cons_append, hAfter, Option.map_some,
    Text.takeWhile_append_stop hAddress (by rintro d ⟨⟩; decide), unescapeHtml_escapeHtml]

end Surroundings

/-- The fragment of a video with a supported source has the tags and the attributes that it has for an empty title
and an empty address. Title and address are read off it as they are given, so videos of one source with
different titles or addresses have different fragments. Videos of other sources have none. -/
theorem fragment?_faithful (video : Video) :
    (video.source = .youtube ∨ video.source = .local →
      ∃ fragment bare, video.fragment? = some fragment ∧
        fragment? { video with title := [], src := [] } = some bare ∧
        tagsOf fragment = tagsOf bare ∧
        shownTitle? fragment = some video.title ∧ shownAddress? fragment = some video.src ∧
        ∀ other : Video, other.source = video.source → other.fragment? = some fragment →
          other = video) ∧
    (¬(video.source = .youtube ∨ video.source = .local) → video.fragment? = none) := by
  obtain ⟨src, title, source⟩ := video
  constructor
  · intro hSource
    obtain ⟨⟨between, closing⟩, hFrame⟩ : ∃ frame, surroundings? source = some frame := by
      rcases hSource with rfl | rfl <;> exact ⟨_, rfl⟩
    have hFragment (title src : Text) : fragment? ⟨src, title, source⟩ =
        some (opening ++ (escapeHtml title ++ (between ++ (escapeHtml src ++ closing)))) := by
      rw [fragment?_eq, hFrame]
      rfl
    refine ⟨_, _, hFragment title src, hFragment [] [], ?_, shownTitle?_fragment hFrame title src,
      shownAddress?_fragment hFrame title src, ?_⟩
    · rw [tagsOf, tagsOf, tagText_fragment hFrame, tagText_fragment hFrame]
    · rintro ⟨otherSrc, otherTitle, _⟩ rfl hSame
      rw [hFragment, Option.some.injEq] at hSame
      have hTitle := shownTitle?_fragment hFrame otherTitle otherSrc
      have hAddress := shownAddress?_fragment hFrame otherTitle otherSrc
      rw [hSame, shownTitle?_fragment hFrame title src] at hTitle
      rw [hSame, shownAddress?_fragment hFrame title src] at hAddress
      cases hTitle
      cases hAddress
      rfl
  · intro hSource
    cases source with
    | youtube => exact absurd (.inl rfl) hSource
    | «local» => exact absurd (.inr rfl) hSource
    | unspecified | unknown type => rfl

/-- The tags of a fragment, for a title and an address that look like markup. -/
example : ((fragment? ⟨text "a\" onload=\"x", text "</div><b>", .local⟩).map tagsOf) =
    some [(text "div", [text "class"]), (text "div", [text "class"]), (text "/div", []),
      (text "video", [text "controls"]), (text "source", [text "src", text "type"]),
      (text "/video", []), (text "/div", [])] := by
  decide +kernel

end Video

end DirectiveMarkdown
