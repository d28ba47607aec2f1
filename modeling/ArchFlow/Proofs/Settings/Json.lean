import ArchFlow.Proofs.Json.Decoding
import ArchFlow.Settings.Json

/-!
# Settings can be read back

* `Settings.decode_toJson`: the text of settings is decoded as the settings.
-/

namespace ArchFlow

open Json (Value Members decode decode_render)
open Json.Decoder (Fields)

theorem EdgeLabeling.decoder_toJson (levels : Nat) (labeling : EdgeLabeling) :
    EdgeLabeling.decoder levels labeling.toJson.document = .ok labeling := by
  cases labeling <;> rfl

namespace Settings

/-- All numbers of settings have at most sixty-four bits. -/
theorem fits_toJson (c : Settings) : c.toJson.Fits := by
  have hversion : c.version.toNat ≤ Json.Number.maxNatural :=
    Nat.le_trans (Nat.le_of_lt c.version.toNat_lt) (by decide)
  have hdepth : c.maxDepth.toNat ≤ Json.Number.maxNatural := Nat.le_of_lt_succ c.maxDepth.toNat_lt
  have hlabels : c.edgeLabels.toJson.Fits := by cases c.edgeLabels <;> trivial
  simp [toJson, Value.Fits, Json.MembersFit, hversion, hdepth, hlabels, Json.fits_strings]

theorem decoder_toJson (levels : Nat) (c : Settings) : decoder (levels + 2) c.toJson.document = .ok c := by
  simp only [toJson, decoder, Json.Decoder.map, Json.Decoder.record_object, Fields.required, Fields.withDefault,
    Fields.blank, Members.ofValues]
  rw [Fields.ofMembers_named, Fields.ofMembers_named, Fields.ofMembers_named, Fields.ofMembers_named,
    Fields.ofMembers_named, Fields.ofMembers_named, Json.Decoder.word32_natural, Json.Decoder.word64_natural,
    Json.Decoder.list_strings, Json.Decoder.list_strings, EdgeLabeling.decoder_toJson, Json.Decoder.list_strings]
  · rfl
  all_goals simp [Fields.Lacks]

/-- The text of settings is decoded as the settings. -/
theorem decode_toJson (c : Settings) : decode decoder c.toJson.pretty = .ok c :=
  (decode_render decoder .pretty c.fits_toJson).trans (decoder_toJson _ c)

end Settings

end ArchFlow
