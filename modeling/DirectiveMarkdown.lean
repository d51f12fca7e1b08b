import DirectiveMarkdown.Main
import DirectiveMarkdown.Proofs.Rewriting.Commutation
import DirectiveMarkdown.Proofs.Section.RoundTrip
import DirectiveMarkdown.Proofs.Html.Escaping
import DirectiveMarkdown.Proofs.Html.Markup
import DirectiveMarkdown.Proofs.Html.Reading
import DirectiveMarkdown.Proofs.Directive.Parts
import DirectiveMarkdown.Proofs.Document.Content
import DirectiveMarkdown.Proofs.Document.Invariant
import DirectiveMarkdown.Proofs.Html.OwnMarkup
import DirectiveMarkdown.Proofs.Document.Rereading
import DirectiveMarkdown.Proofs.Document.LabelHtml
import DirectiveMarkdown.Proofs.Rewriting.StandardOrder
import DirectiveMarkdown.Proofs.Traversal.Ending
import DirectiveMarkdown.Proofs.Traversal.Visits
import DirectiveMarkdown.Proofs.Section.Closing
import DirectiveMarkdown.Proofs.Section.FencedCode
import DirectiveMarkdown.Proofs.Section.ItemCode
import DirectiveMarkdown.Proofs.Document.Wrapping
import DirectiveMarkdown.Proofs.Shape.Document
import DirectiveMarkdown.Proofs.Config.Building
import DirectiveMarkdown.Proofs.Html.CalloutBody
import DirectiveMarkdown.Proofs.Document.Backslash
import DirectiveMarkdown.Proofs.Document.Depth
import DirectiveMarkdown.Proofs.Section.InsertedCode
import DirectiveMarkdown.Proofs.Traversal.Interruption
import DirectiveMarkdown.Proofs.CommandLine.Effects
import DirectiveMarkdown.Proofs.Section.Unclosed
import DirectiveMarkdown.Proofs.Document.LabelPhrasing
import DirectiveMarkdown.Proofs.Document.Reference
import DirectiveMarkdown.Proofs.Document.LoneDirective
import DirectiveMarkdown.Proofs.Directive.LineGrammar
import DirectiveMarkdown.Proofs.Directive.Search
import DirectiveMarkdown.Proofs.Directive.QuotedValue
import DirectiveMarkdown.Proofs.Document.Expanded
import DirectiveMarkdown.Proofs.Directive.AttributeList
import DirectiveMarkdown.Proofs.Html.ChosenElements
import DirectiveMarkdown.Proofs.Html.TextContent
import DirectiveMarkdown.Proofs.Html.RawHtml
import DirectiveMarkdown.Proofs.Html.VideoFragment
import DirectiveMarkdown.Proofs.Config.Nearest
import DirectiveMarkdown.Proofs.Json.Trees
import DirectiveMarkdown.Proofs.Section.OpenItems
import DirectiveMarkdown.Proofs.Document.Assembly
import DirectiveMarkdown.Proofs.Document.Slices
