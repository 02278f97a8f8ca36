import BucketAdmin.Api.Body
import BucketAdmin.Proofs.Json.Members

/-!
# Documents read back

For each layout the reader of a document takes the value that is written for some datum back to
that datum: the wire document and the stored form of settings, nodes, totals and snapshots, and
error bodies (`reader_json`, `ofStored_stored`, `errorReader_json`). The values themselves are
read back from their text (`readsBack_json` and the like), as they are put together from texts,
whole numbers, lists and maps.
-/

namespace BucketAdmin

open Json

namespace Bucket

@[simp] theorem Name.reader_ofText (n : Name) : Name.reader (.ofText n.text) = .ok n := by
  simp [Name.reader, Name.ofString_text]

@[simp] theorem Kind.reader_ofText (k : Kind) : Kind.reader (.ofText k.text) = .ok k := by
  cases k <;> exact Value.variant_ofText rfl

@[simp] theorem Auth.reader_ofText (a : Auth) : Auth.reader (.ofText a.text) = .ok a := by
  cases a <;> exact Value.variant_ofText rfl

namespace Document

theorem readsBack_json (d : Document) : ReadsBack d.json := by
  refine readsBack_ofMembers ?_
  simp only [List.forall_mem_cons]
  exact ⟨reads_ofText _, reads_ofText _, reads_ofNat _, reads_ofNat _, reads_bool _,
    reads_ofText _, reads_ofText _, reads_ofNat _, reads_bool _, List.forall_mem_nil _⟩

theorem reader_json (d : Document) : reader d.json = .ok d := by
  rw [reader, json, Record.read_ofMembers]
  · simp [Record.Slots.get, Record.Slots.getD, List.lookup_cons]
  · simp only [List.forall_mem_cons]
    exact ⟨⟨_, rfl, Field.check_required (Value.text_ofText _)⟩,
      ⟨_, rfl, Field.check_optional (Kind.reader_ofText _)⟩,
      ⟨_, rfl, Field.check_required (Value.uint64_ofNat _)⟩,
      ⟨_, rfl, Field.check_optional (Value.uint8_ofNat _)⟩,
      ⟨_, rfl, Field.check_optional (Value.flag_bool _)⟩,
      ⟨_, rfl, Field.check_optional (Auth.reader_ofText _)⟩,
      ⟨_, rfl, Field.check_optional (Value.text_ofText _)⟩,
      ⟨_, rfl, Field.check_optional (Value.uint16_ofNat _)⟩,
      ⟨_, rfl, Field.check_optional (Value.flag_bool _)⟩, List.forall_mem_nil _⟩
  · simp
  · rfl

/-- The document of settings within bounds describes them: nothing but the way to authenticate is
left aside, and that follows from the password. -/
theorem toSettings_ofSettings {s : Settings} (h : s.Valid) : (ofSettings s).toSettings = .ok s := by
  have hvalid : s.validate = .ok s := Settings.validate_eq_ok_iff.mpr ⟨h, rfl⟩
  simp [toSettings, ofSettings, Name.ofString_text, hvalid]

end Document

namespace Settings

theorem readsBack_stored (s : Settings) : ReadsBack s.stored := by
  refine readsBack_ofMembers ?_
  simp only [List.forall_mem_cons]
  exact ⟨reads_ofText _, reads_ofText _, reads_ofNat _, reads_ofNat _, reads_ofText _,
    reads_ofNat _, reads_bool _, reads_bool _, List.forall_mem_nil _⟩

theorem ofStored_stored (s : Settings) : ofStored s.stored = .ok s := by
  rw [ofStored, stored, Record.read_ofMembers]
  · simp [Record.Slots.get, List.lookup_cons]
  · simp only [List.forall_mem_cons]
    exact ⟨⟨_, rfl, Field.check_required (Name.reader_ofText _)⟩,
      ⟨_, rfl, Field.check_required (Kind.reader_ofText _)⟩,
      ⟨_, rfl, Field.check_required (Value.uint64_ofNat _)⟩,
      ⟨_, rfl, Field.check_required (Value.uint16_ofNat _)⟩,
      ⟨_, rfl, Field.check_required (Value.text_ofText _)⟩,
      ⟨_, rfl, Field.check_required (Value.uint8_ofNat _)⟩,
      ⟨_, rfl, Field.check_required (Value.flag_bool _)⟩,
      ⟨_, rfl, Field.check_required (Value.flag_bool _)⟩, List.forall_mem_nil _⟩
  · simp
  · rfl

/-- The record that keeps settings gives them back, whatever their bounds. -/
@[simp] theorem ofRecord_toRecord (s : Settings) : ofRecord s.toRecord = .ok s := by
  rw [ofRecord, toRecord, read_render s.readsBack_stored, ofStored_stored]

end Settings

end Bucket

namespace Cluster

@[simp] theorem NodeStatus.reader_ofText (s : NodeStatus) :
    NodeStatus.reader (.ofText s.text) = .ok s := by
  cases s <;> exact Value.variant_ofText rfl

namespace Node

theorem readsBack_json (n : Node) : ReadsBack n.json := by
  refine readsBack_ofMembers ?_
  simp only [List.forall_mem_cons]
  refine ⟨reads_ofText _, reads_ofText _, reads_ofText _, readsBack_ofList ?_,
    List.forall_mem_nil _⟩
  intro v hv
  obtain ⟨s, -, rfl⟩ := List.mem_map.mp hv
  exact reads_ofText s

theorem reader_json (n : Node) : reader n.json = .ok n := by
  have hservices : Value.list Value.text (.ofList (n.services.map .ofText)) = .ok n.services :=
    Value.list_ofList fun s _ => Value.text_ofText s
  rw [reader, json, Record.read_ofMembers]
  · simp [Record.Slots.get, List.lookup_cons, hservices]
  · simp only [List.forall_mem_cons]
    exact ⟨⟨_, rfl, Field.check_required (Value.text_ofText _)⟩,
      ⟨_, rfl, Field.check_required (Value.text_ofText _)⟩,
      ⟨_, rfl, Field.check_required (NodeStatus.reader_ofText _)⟩,
      ⟨_, rfl, Field.check_required hservices⟩, List.forall_mem_nil _⟩
  · simp
  · rfl

end Node

namespace Totals

theorem readsBack_json (t : Totals) : ReadsBack t.json := by
  refine readsBack_ofMembers ?_
  simp only [List.forall_mem_cons]
  exact ⟨reads_ofNat _, reads_ofNat _, reads_ofNat _, reads_ofNat _, reads_ofNat _, reads_ofNat _,
    List.forall_mem_nil _⟩

theorem reader_json (t : Totals) : reader t.json = .ok t := by
  rw [reader, json, Record.read_ofMembers]
  · simp [Record.Slots.get, List.lookup_cons]
  · simp only [List.forall_mem_cons]
    exact ⟨⟨_, rfl, Field.check_required (Value.uint64_ofNat _)⟩,
      ⟨_, rfl, Field.check_required (Value.uint64_ofNat _)⟩,
      ⟨_, rfl, Field.check_required (Value.uint64_ofNat _)⟩,
      ⟨_, rfl, Field.check_required (Value.uint64_ofNat _)⟩,
      ⟨_, rfl, Field.check_required (Value.uint64_ofNat _)⟩,
      ⟨_, rfl, Field.check_required (Value.uint64_ofNat _)⟩, List.forall_mem_nil _⟩
  · simp
  · rfl

end Totals

namespace Info

theorem readsBack_json (i : Info) : ReadsBack i.json := by
  refine readsBack_ofMembers ?_
  simp only [List.forall_mem_cons]
  refine ⟨readsBack_ofList ?_, i.storage.readsBack_json, List.forall_mem_nil _⟩
  intro v hv
  obtain ⟨n, -, rfl⟩ := List.mem_map.mp hv
  exact n.readsBack_json

theorem reader_json (i : Info) : reader i.json = .ok i := by
  have hnodes : Value.list Node.reader (.ofList (i.nodes.map Node.json)) = .ok i.nodes :=
    Value.list_ofList fun n _ => n.reader_json
  rw [reader, json, Record.read_ofMembers]
  · simp [Record.Slots.get, List.lookup_cons, hnodes, Totals.reader_json]
  · simp only [List.forall_mem_cons]
    exact ⟨⟨_, rfl, Field.check_required hnodes⟩,
      ⟨_, rfl, Field.check_required i.storage.reader_json⟩, List.forall_mem_nil _⟩
  · simp
  · rfl

end Info

end Cluster

namespace Api

theorem readsBack_error (message : String) :
    ReadsBack (.ofMembers [("error", .ofText message)]) := by
  refine readsBack_ofMembers ?_
  simp only [List.forall_mem_cons]
  exact ⟨reads_ofText message, List.forall_mem_nil _⟩

theorem errorReader_json (message : String) :
    errorReader (.ofMembers [("error", .ofText message)]) = .ok message := by
  rw [errorReader, Record.read_ofMembers]
  · simp [Record.Slots.get]
  · simp only [List.forall_mem_cons]
    exact ⟨⟨_, rfl, Field.check_required (Value.text_ofText _)⟩, List.forall_mem_nil _⟩
  · simp
  · rfl

end Api

end BucketAdmin
