import ArchFlow.Graph.Json
import ArchFlow.Settings.Basic

/-!
# Settings in JSON

Only the way to label edges may be left out.
-/

namespace ArchFlow

open Json (Value Decoder)
open Json.Decoder (Fields)

/-- Settings as an object with a member for each of them. -/
def Settings.toJson (c : Settings) : Value :=
  .object [("version", .natural c.version.toNat), ("max_depth", .natural c.maxDepth.toNat),
    ("follow_links", .strings c.followLinks), ("attributes", .strings c.attributes),
    ("edge_labels", c.edgeLabels.toJson), ("root_kinds", .strings c.rootKinds)]

/-- Decodes settings; edges are labelled by their parents unless the text says otherwise. -/
def Settings.decoder : Decoder Settings :=
  (Decoder.record "FlowSliceConfig" <|
    Fields.required "version" Decoder.word32 <|
    Fields.required "max_depth" Decoder.word64 <|
    Fields.required "follow_links" (Decoder.list Decoder.text) <|
    Fields.required "attributes" (Decoder.list Decoder.text) <|
    Fields.withDefault "edge_labels" .parentLabel EdgeLabeling.decoder <|
    Fields.required "root_kinds" (Decoder.list Decoder.text) .nil).map
    fun (version, maxDepth, followLinks, attributes, edgeLabels, rootKinds, _) =>
      ⟨version, maxDepth, followLinks, attributes, edgeLabels, rootKinds⟩

end ArchFlow
