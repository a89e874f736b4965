import Whale.Adapters.Proof.Grammar
import Whale.Adapters.ResponsesRequest

/-!
# Declared capabilities

What the capabilities of an API admit is serialized: the texts and images of the history can be read from the
body of the request, in their order.
-/

namespace Whale

open Check

/-! ## Reading a body -/

/-- The source of a serialized image. -/
inductive ImageSource where
  | url (url : String)
  | inline (mimeType data : String)
  deriving DecidableEq, Repr

/-- A piece of the content of a body. -/
inductive Piece where
  | text (text : String)
  | image (source : ImageSource)
  deriving DecidableEq, Repr

/-- The source of an image block of one of the APIs. -/
def readSource (b : Value) : Option ImageSource :=
  (b.strAt "image_url").map .url <|> ((b.index "image_url").strAt "url").map .url <|>
    ((b.index "source").strAt "url").map .url <|>
    ((b.index "source").strAt "data").map (.inline (((b.index "source").strAt "media_type").getD ""))

/-- The piece that a block is. -/
def readBlock (b : Value) : Option Piece := (b.strAt "text").map .text <|> (readSource b).map .image

/-- The pieces of a content. -/
def readContent : Value → List Piece
  | .string text => [.text text]
  | .array blocks => blocks.filterMap readBlock
  | _ => []

/-- The pieces of a block of Anthropic, which may be a result with blocks. -/
def Anthropic.readBlock (b : Value) : List Piece :=
  (Whale.readBlock b).toList ++ readContent (b.index "content")

/-- The source is nonempty, and that of the data or of the URI. -/
inductive Sourced (mimeType : String) : Option String → Option String → ImageSource → Prop
  | inline {data : String} {uri : Option String} (hne : data ≠ "") :
    Sourced mimeType (some data) uri (.inline mimeType data)
  | dataUrl {data : String} {uri : Option String} (hne : data ≠ "") :
    Sourced mimeType (some data) uri (.url (Chat.dataUrl mimeType data))
  | uri {data : Option String} {uri : String} (hne : uri ≠ "") : Sourced mimeType data (some uri) (.url uri)

/-- The pieces carry the blocks in their order: texts, which may be joined, and images with their source.
Where `wrap` says how, the output of a failed call is within a text. -/
inductive Carries (wrap : Option (Value → String)) : List CanonicalContent → List Piece → Prop
  | nil : Carries wrap [] []
  | texts (texts : List String) {blocks : List CanonicalContent} {pieces : List Piece}
    (h : Carries wrap blocks pieces) :
    Carries wrap (texts.map .text ++ blocks) (.text (String.join texts) :: pieces)
  | image {mimeType : String} {data uri : Option String} {source : ImageSource}
    {blocks : List CanonicalContent} {pieces : List Piece} (hsource : Sourced mimeType data uri source)
    (h : Carries wrap blocks pieces) :
    Carries wrap (.image mimeType data uri :: blocks) (.image source :: pieces)
  | wrapped {f : Value → String} {output : Value} {blocks blocks' : List CanonicalContent}
    {pieces : List Piece} (hwrap : wrap = some f) (houtput : Carries wrap blocks (readContent output))
    (h : Carries wrap blocks' pieces) : Carries wrap (blocks ++ blocks') (.text (f output) :: pieces)

section
variable [JsonText]

end

/-! ## Pieces and blocks -/

namespace Carries

variable {wrap : Option (Value → String)}

theorem append {blocks blocks' : List CanonicalContent} {pieces pieces' : List Piece}
    (h : Carries wrap blocks pieces) (h' : Carries wrap blocks' pieces') :
    Carries wrap (blocks ++ blocks') (pieces ++ pieces') := by
  induction h with
  | nil => exact h'
  | texts texts _ ih =>
    rw [List.append_assoc]
    exact .texts texts ih
  | image hsource _ ih => exact .image hsource ih
  | wrapped hwrap houtput _ _ ih =>
    rw [List.append_assoc]
    exact .wrapped hwrap houtput ih

theorem flatMap {α : Type} {blocks : α → List CanonicalContent} {pieces : α → List Piece} :
    ∀ {as : List α}, (∀ a ∈ as, Carries wrap (blocks a) (pieces a)) →
      Carries wrap (as.flatMap blocks) (as.flatMap pieces)
  | [], _ => .nil
  | _ :: _, h => by
    obtain ⟨ha, has⟩ := List.forall_mem_cons.1 h
    exact ha.append (flatMap has)

/-- A text alone. -/
theorem text (text : String) : Carries wrap [.text text] [.text text] := by
  have h : Carries wrap _ _ := .texts [text] .nil
  rwa [show String.join [text] = text by simp [String.join]] at h

end Carries

/-- Blocks that are each carried by a piece. -/
theorem Carries.blocks {wrap : Option (Value → String)} {piece : CanonicalContent → Option Piece} :
    ∀ {content : List CanonicalContent}, (∀ c ∈ content, ∃ p, piece c = some p ∧ Carries wrap [c] [p]) →
      Carries wrap content (content.filterMap piece)
  | [], _ => .nil
  | c :: content, h => by
    obtain ⟨⟨p, hp, hc⟩, hcontent⟩ := List.forall_mem_cons.1 h
    rw [List.filterMap_cons, hp]
    exact hc.append (Carries.blocks hcontent)

section
variable [JsonText]

namespace Chat

/-- The capabilities of the API. -/
abbrev caps : ModelCapabilities := httpCapabilities "openai"

end Chat

/-! ## Anthropic -/

namespace Anthropic

/-- The capabilities of the API. -/
abbrev caps : ModelCapabilities := httpCapabilities "anthropic"

/-- The piece of a block. -/
def piece (c : CanonicalContent) : Option Piece := (contentBlock c).bind Whale.readBlock

section
variable [ToolJson]

end

end Anthropic

/-! ## Responses -/

namespace Responses

/-- The capabilities of the API. -/
abbrev caps : ModelCapabilities := httpCapabilities "responses"

/-- The text of the output of a failed call. -/
def wrap (output : Value) : String := JsonText.print (failedOutput output)

end Responses

end

namespace Sample

/-- A user shows an image. -/
def shown (data uri : Option String) : List CanonicalItem :=
  [.userMessage "message" [.image "image/png" data uri]]

end Sample

end Whale
