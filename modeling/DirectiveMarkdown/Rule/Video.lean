import DirectiveMarkdown.Html.Writer
import DirectiveMarkdown.Rule.Basic

/-! Videos: leaf directives with the name `video` become the markup that embeds the video. -/
namespace DirectiveMarkdown

/-- What becomes of a video whose type is missing or unknown: nothing, or an error. -/
inductive VideoPolicy where
  | lenient
  | strict
deriving DecidableEq

inductive VideoSource where
  | youtube
  | local
  | unspecified
  | unknown (type : Text)
deriving DecidableEq

namespace VideoSource

def ofType : Option Text → VideoSource
  | none => .unspecified
  | some type =>
    if type = text "youtube" then .youtube
    else if type = text "local" then .local
    else .unknown type

def describe : VideoSource → Text
  | .youtube => text "youtube"
  | .local => text "local"
  | .unspecified => text "(none)"
  | .unknown type => type

end VideoSource

/-- A video as its directive describes it. -/
structure Video where
  src : Text
  title : Text
  source : VideoSource
deriving DecidableEq

namespace Video

def selector : Selector := ⟨.leafDirective, some (text "video")⟩

def ofNode (node : Node) : Video :=
  { src := (node.attribute? (text "src")).getD []
    title := (node.attribute? (text "title")).getD []
    source := VideoSource.ofType (node.attribute? (text "type")) }

/-- The element that plays a video with the given address. -/
def player? (source : VideoSource) (src : Text) : Option Text :=
  match source with
  | .youtube => some (text "<iframe src=\"" ++ escapeHtml src ++ text "\"></iframe>")
  | .local =>
    some (text "<video controls><source src=\"" ++ escapeHtml src ++
      text "\" type=\"video/mp4\"></video>")
  | .unspecified | .unknown _ => none

/-- The markup that embeds a video, if its source is supported. -/
def fragment? (video : Video) : Option Text :=
  (player? video.source video.src).map fun player =>
    text "<div class=\"video-plugin-div\"><div class=\"video-plugin-title\">" ++
      escapeHtml video.title ++ text "</div>" ++ player ++ text "</div>"

/-- What becomes of a node. Only videos are replaced. -/
def rewrite (policy : VideoPolicy) (node : Node) : Except RewriteError Action :=
  if node.isDirective .leafDirective (text "video") then
    let video := ofNode node
    match video.fragment? with
    | some fragment => .ok (.replace (.ofHtml fragment))
    | none =>
      match policy, video.source with
      | .strict, .unspecified => .error .missingVideoType
      | .strict, .unknown type => .error (.unknownVideoType type)
      | _, _ => .ok (.replace (.ofHtml []))
  else .ok .keep

def rule (policy : VideoPolicy) : Rule :=
  { name := text "video"
    selection := [selector]
    rewrite := fun _ node => rewrite policy node }

end Video

end DirectiveMarkdown
