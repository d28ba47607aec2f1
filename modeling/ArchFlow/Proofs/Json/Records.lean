import ArchFlow.Proofs.Flow.Json
import ArchFlow.Proofs.Settings.Json
import ArchFlow.Proofs.TypeSet.Json
import ArchFlow.Snapshot.Json

/-!
# Records are read back

Snapshots, graphs, settings and elements are read back from their texts as what was written. A member that is left out
for want of a value is read as no value, and so is null in its place; an empty text is a value, and is written.

* `Snapshot.decoder_toJson`, `Graph.decoder_toJson`, `Element.decoder_toJson`: documents of records.
* `Json.decode_render_records`: their texts, in either layout.
-/

namespace ArchFlow

open Json (Value Members Layout Decoder decode decode_render)
open Json.Decoder (Fields)

/-! ## Elements -/

namespace Element

theorem fits_toJson (e : Element) : e.toJson.Fits := ⟨trivial, e.type.fits_toJson, trivial⟩

theorem decoder_toJson (levels : Nat) (e : Element) : decoder (levels + 5) e.toJson.document = .ok e := by
  simp only [toJson, decoder, Decoder.map, Decoder.record_object, Fields.required, Fields.blank, Members.ofValues]
  rw [Fields.ofMembers_named, Fields.ofMembers_named, Decoder.text_string, TypeSet.decoder_toJson]
  · rfl
  all_goals simp [Fields.Lacks]

end Element

/-! ## Graphs -/

namespace GraphNode

theorem fits_toJson (n : GraphNode) : n.toJson.Fits := ⟨trivial, trivial, trivial, trivial⟩

theorem decoder_toJson (levels : Nat) (n : GraphNode) : decoder (levels + 1) n.toJson.document = .ok n := by
  simp only [toJson, decoder, Decoder.map, Decoder.record_object, Fields.required, Fields.blank, Members.ofValues]
  rw [Fields.ofMembers_named, Fields.ofMembers_named, Fields.ofMembers_named, Decoder.text_string, Decoder.text_string,
    Decoder.text_string]
  · rfl
  all_goals simp [Fields.Lacks]

end GraphNode

namespace GraphEdge

theorem fits_toJson (e : GraphEdge) : e.toJson.Fits := by
  have hlabel : (Value.optional e.label).Fits := by cases e.label <;> trivial
  exact ⟨trivial, trivial, hlabel, trivial⟩

/-- Null stands for no label, and an empty label for itself. -/
theorem optional_label (levels : Nat) (label : Option String) :
    Decoder.optional Decoder.text levels (Value.optional label).document = .ok label := by
  cases label <;> rfl

theorem decoder_toJson (levels : Nat) (e : GraphEdge) : decoder (levels + 1) e.toJson.document = .ok e := by
  simp only [toJson, decoder, Decoder.map, Decoder.record_object, Fields.required, Fields.nullable, Fields.blank,
    Members.ofValues]
  rw [Fields.ofMembers_named, Fields.ofMembers_named, Fields.ofMembers_named, Decoder.text_string, Decoder.text_string,
    optional_label]
  · rfl
  all_goals simp [Fields.Lacks]

end GraphEdge

namespace Graph

theorem fits_toJson (g : Graph) : g.toJson.Fits :=
  ⟨Json.fits_array GraphNode.fits_toJson g.nodes, Json.fits_array GraphEdge.fits_toJson g.edges, trivial⟩

theorem decoder_toJson (levels : Nat) (g : Graph) : decoder (levels + 3) g.toJson.document = .ok g := by
  simp only [toJson, decoder, Decoder.map, Decoder.record_object, Fields.required, Fields.blank, Members.ofValues]
  rw [Fields.ofMembers_named, Fields.ofMembers_named, Decoder.list_array (GraphNode.decoder_toJson levels),
    Decoder.list_array (GraphEdge.decoder_toJson levels)]
  · rfl
  all_goals simp [Fields.Lacks]

end Graph

/-! ## Snapshots -/

theorem optionalMember_eq (name : String) (value : Option String) :
    optionalMember name value = value.toList.map fun s => (name, Value.string s) := by
  cases value <;> rfl

namespace ElementFact

/-- The value of a fact; there are members for an id and a name only if it has them. -/
theorem toJson_eq (f : ElementFact) :
    f.toJson = .object (f.id.toList.map (fun s => ("id", .string s)) ++ ("kind", .string f.kind) ::
      (f.name.toList.map (fun s => ("name", .string s)) ++ [("attributes", .textMap f.attributes)])) := by
  rw [toJson, optionalMember_eq, optionalMember_eq, List.append_assoc, List.append_assoc, List.singleton_append]

theorem fits_toJson (f : ElementFact) : f.toJson.Fits := by
  have hattributes : (Value.textMap f.attributes).Fits := Json.fits_textMap f.attributes
  rw [toJson_eq]
  cases f.id <;> cases f.name <;> simp [Value.Fits, Json.MembersFit, hattributes]

theorem decoder_toJson (levels : Nat) (f : ElementFact) : decoder (levels + 2) f.toJson.document = .ok f := by
  have hread : ∀ s, Decoder.optional Decoder.text (levels + 1) (Value.string s).document = .ok (some s) := fun _ => rfl
  rw [toJson_eq]
  simp only [decoder, Decoder.map, Decoder.record_object, Fields.required, Fields.withDefault, Fields.blank]
  rw [Fields.ofMembers_option hread, Members.ofValues, Fields.ofMembers_named, Fields.ofMembers_option hread,
    Members.ofValues, Fields.ofMembers_named, Decoder.text_string, Decoder.textMap_textMap]
  · rfl
  all_goals cases f.name <;> simp [Fields.Lacks, Members.ofValues]

end ElementFact

namespace LinkFact

theorem fits_toJson (l : LinkFact) : l.toJson.Fits := ⟨trivial, trivial, trivial, trivial⟩

theorem decoder_toJson (levels : Nat) (l : LinkFact) : decoder (levels + 1) l.toJson.document = .ok l := by
  simp only [toJson, decoder, Decoder.map, Decoder.record_object, Fields.required, Fields.blank, Members.ofValues]
  rw [Fields.ofMembers_named, Fields.ofMembers_named, Fields.ofMembers_named, Decoder.text_string, Decoder.text_string,
    Decoder.text_string]
  · rfl
  all_goals simp [Fields.Lacks]

end LinkFact

namespace Snapshot

theorem fits_toJson (s : Snapshot) : s.toJson.Fits :=
  ⟨Json.fits_array ElementFact.fits_toJson s.elements, Json.fits_array LinkFact.fits_toJson s.links, trivial⟩

theorem decoder_toJson (levels : Nat) (s : Snapshot) : decoder (levels + 4) s.toJson.document = .ok s := by
  simp only [toJson, decoder, Decoder.map, Decoder.record_object, Fields.withDefault, Fields.blank, Members.ofValues]
  rw [Fields.ofMembers_named, Fields.ofMembers_named, Decoder.list_array (ElementFact.decoder_toJson levels),
    Decoder.list_array (LinkFact.decoder_toJson (levels + 1))]
  · rfl
  all_goals simp [Fields.Lacks]

end Snapshot

/-! ## Texts -/

namespace Json

/-- Values that are read back from their texts have different texts. -/
theorem injective_of_decode {α : Type} {read : Decoder α} {text : α → String} (h : ∀ a, decode read (text a) = .ok a) :
    Function.Injective text := fun a a' heq => by
  have hsame : Except.ok (ε := Fault) a = .ok a' := by rw [← h a, heq, h a']
  exact Except.ok.inj hsame

/-- **Records are read back.** Every snapshot, every graph, all settings and every element are read back from their
texts, in either layout. So different ones have different texts; in particular those that leave out an id, a name or a
label, and those in which it is empty. -/
theorem decode_render_records (layout : Layout) :
    (∀ s : Snapshot, decode Snapshot.decoder (s.toJson.render layout) = .ok s) ∧
      (∀ g : Graph, decode Graph.decoder (g.toJson.render layout) = .ok g) ∧
      (∀ c : Settings, decode Settings.decoder (c.toJson.render layout) = .ok c) ∧
      (∀ e : Element, decode Element.decoder (e.toJson.render layout) = .ok e) ∧
      (Function.Injective fun s : Snapshot => s.toJson.render layout) ∧
      Function.Injective fun g : Graph => g.toJson.render layout := by
  have hsnapshots : ∀ s : Snapshot, decode Snapshot.decoder (s.toJson.render layout) = .ok s := fun s =>
    (decode_render _ layout s.fits_toJson).trans (s.decoder_toJson _)
  have hgraphs : ∀ g : Graph, decode Graph.decoder (g.toJson.render layout) = .ok g := fun g =>
    (decode_render _ layout g.fits_toJson).trans (g.decoder_toJson _)
  have hsettings : ∀ c : Settings, decode Settings.decoder (c.toJson.render layout) = .ok c := fun c =>
    (decode_render _ layout c.fits_toJson).trans (c.decoder_toJson _)
  have helements : ∀ e : Element, decode Element.decoder (e.toJson.render layout) = .ok e := fun e =>
    (decode_render _ layout e.fits_toJson).trans (e.decoder_toJson _)
  exact ⟨hsnapshots, hgraphs, hsettings, helements, injective_of_decode hsnapshots, injective_of_decode hgraphs⟩

end Json

end ArchFlow
