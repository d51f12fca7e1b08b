import DirectiveMarkdown.Proofs.Markdown.Readers

/-! What one step of reading inline content can do, a case for each construct. What holds of every step is
shown case by case, with what was found in the text at hand. -/
namespace DirectiveMarkdown.Markdown

/-- At the given character and the text after it, reading goes on in the given state before the given
text. -/
inductive InlineRead (definitions : Definitions) (state : InlineState) :
    Char → Text → InlineState × Text → Prop
  | hardBreak (after : Text) : InlineRead definitions state '\\' ('\n' :: after)
      (state.push .hardBreak '\n', after.dropWhile isInlineBlank)
  | escape {next : Char} (after : Text) (h : isAsciiPunctuation next = true) :
      InlineRead definitions state '\\' (next :: after) (state.push (.text [next]) next, after)
  | softBreak (rest : Text) : InlineRead definitions state '\n' rest
      (state.push .softBreak '\n', rest.dropWhile isInlineBlank)
  | code {rest code after : Text} {fuel : Nat}
      (h : codeEnd? (('\x60' :: rest).takeWhile (· == '\x60')).length fuel
        (('\x60' :: rest).dropWhile (· == '\x60')) = some (code, after)) :
      InlineRead definitions state '\x60' rest (state.push (.code (codeValue code)) '\x60', after)
  | backticks (rest : Text) : InlineRead definitions state '\x60' rest
      (state.push (.text (('\x60' :: rest).takeWhile (· == '\x60'))) '\x60',
        ('\x60' :: rest).dropWhile (· == '\x60'))
  | autolink {rest address after : Text} (h : autolink? rest = some (address, after)) :
      InlineRead definitions state '<' rest
        (state.push (.link address [] [.text address]) '>', after)
  | html {rest after : Text} (h : inlineHtml? rest = some after) :
      InlineRead definitions state '<' rest
        (state.push (.html ('<' :: rest.take (rest.length - after.length))) '>', after)
  | reference {rest value after : Text} (h : characterReference? rest = some (value, after)) :
      InlineRead definitions state '&' rest (state.push (.text value) ';', after)
  | delimiters {c : Char} (rest : Text) (h : c ∈ ['*', '_', '~']) :
      InlineRead definitions state c rest
        ({ state with
            pieces := delimiterPiece c ((c :: rest).takeWhile (· == c)).length state.last
              ((c :: rest).dropWhile (· == c)).head? :: state.pieces
            last := some c },
          (c :: rest).dropWhile (· == c))
  | image (after : Text) : InlineRead definitions state '!' ('[' :: after)
      (state.openBracket true after, after)
  | openBracket (rest : Text) : InlineRead definitions state '[' rest
      (state.openBracket false rest, rest)
  | closeBracket (rest : Text) : InlineRead definitions state ']' rest
      (closeBracket definitions state rest)
  /-- The character starts nothing and stands for itself. -/
  | mark {c : Char} (rest : Text) (h : c ∈ ['\\', '<', '&', '~', '!'])
      (hEscape : c = '\\' → ∀ next ∈ rest.head?, isAsciiPunctuation next = false) :
      InlineRead definitions state c rest (state.push (.text [c]) c, rest)
  | plain {c : Char} (rest : Text) (h : isSpecial c = false) :
      InlineRead definitions state c rest (plainText state (c :: rest))

/-- These are all the ways in which reading goes on at a character. -/
theorem inlineRead_inlineStep (gfm : Bool) (definitions : Definitions) (state : InlineState) (c : Char)
    (rest : Text) :
    InlineRead definitions state c rest (inlineStep gfm definitions state c rest) := by
  have hMark (h : c ∈ ['<', '&', '~', '!']) :
      InlineRead definitions state c rest (state.push (.text [c]) c, rest) := by
    refine .mark rest (List.mem_cons_of_mem _ h) ?_
    rintro rfl
    exact absurd h (by decide)
  unfold inlineStep
  split
  · next hEscape =>
      subst hEscape
      split
      · exact .hardBreak _
      · split
        · next hPunctuation => exact .escape _ hPunctuation
        · next next after _ hPunctuation =>
            refine .mark _ (by decide) fun _ other hMem => ?_
            rw [← Option.some.inj hMem]
            exact eq_false_of_ne_true hPunctuation
      · exact .mark _ (by decide) (by rintro - _ ⟨⟩)
  split
  · next hFeed =>
      subst hFeed
      exact .softBreak rest
  split
  · next hTick =>
      subst hTick
      dsimp only
      split
      · next hCode => exact .code hCode
      · exact .backticks rest
  split
  · next hAngle =>
      subst hAngle
      split
      · next hLink => exact .autolink hLink
      · split
        · next hHtml => exact .html hHtml
        · exact hMark (by decide)
  split
  · next hReference =>
      subst hReference
      split
      · next hValue => exact .reference hValue
      · exact hMark (by decide)
  split
  · next hDelimiter => exact .delimiters rest (by simpa using hDelimiter.imp_right (.imp_right And.left))
  split
  · next hImage =>
      subst hImage
      split
      · exact .image _
      · exact hMark (by decide)
  split
  · next hOpen =>
      subst hOpen
      exact .openBracket rest
  split
  · next hClose =>
      subst hClose
      exact .closeBracket rest
  split
  · next hTilde => exact hMark (by simp [hTilde])
  · have hSpecial : isSpecial c = false := by
      simp_all [isSpecial]
    exact .plain rest hSpecial

end DirectiveMarkdown.Markdown
