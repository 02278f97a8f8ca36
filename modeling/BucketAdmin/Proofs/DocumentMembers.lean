import Mathlib.Data.List.Count
import BucketAdmin.Proofs.Documents
import BucketAdmin.Proofs.Json.Derivation
import BucketAdmin.Proofs.Json.Spelling

/-!
# What a wire document is read from

A map is read as a document just if no field is there twice and the values found by their keys tell
what the document has (`Document.reader_object_iff`). So neither the order of the members nor those
of other names matter, nor how a text is spelled. A list is read as a map of the first fields in
order (`Document.reader_array`).
-/

namespace BucketAdmin

namespace Bucket

namespace Document

open Json
open Json.Record (Slots Named)

/-- The members a document may have. -/
inductive Member where
  | name
  | kind
  | quotaMb
  | replicas
  | indexReplicas
  | auth
  | password
  | port
  | flushEnabled
  deriving DecidableEq

namespace Member

def key : Member → String
  | .name => "name"
  | .kind => "bucketType"
  | .quotaMb => "ramQuotaMB"
  | .replicas => "replicaNumber"
  | .indexReplicas => "replicaIndex"
  | .auth => "authType"
  | .password => "saslPassword"
  | .port => "proxyPort"
  | .flushEnabled => "flushEnabled"

/-- All members, in the order in which a list has them. -/
def all : List Member :=
  [.name, .kind, .quotaMb, .replicas, .indexReplicas, .auth, .password, .port, .flushEnabled]

theorem mem_all (m : Member) : m ∈ all := by
  cases m <;> decide

theorem key_injective {m n : Member} (h : m.key = n.key) : m = n := by
  revert h
  cases m <;> cases n <;> decide

theorem nodup_all : all.Nodup := by decide

theorem nodup_keys : (all.map key).Nodup :=
  nodup_all.map fun _ _ h => key_injective h

end Member

/-- The field that reads the member. -/
def Member.field : Member → Field
  | .name => .required Member.name.key Value.text
  | .kind => .optional Member.kind.key Kind.reader
  | .quotaMb => .required Member.quotaMb.key Value.uint64
  | .replicas => .optional Member.replicas.key Value.uint8
  | .indexReplicas => .optional Member.indexReplicas.key Value.flag
  | .auth => .optional Member.auth.key Auth.reader
  | .password => .optional Member.password.key Value.text
  | .port => .optional Member.port.key Value.uint16
  | .flushEnabled => .optional Member.flushEnabled.key Value.flag

theorem fields_layout : layout.fields = Member.all.map Member.field := rfl

theorem Member.key_field (m : Member) : m.field.key = m.key := by
  cases m <;> rfl

theorem Member.field?_key (m : Member) : layout.field? m.key = some m.field := by
  cases m <;> rfl

theorem isField_iff {key : String} : layout.isField key = true ↔ ∃ m : Member, m.key = key := by
  constructor
  · intro h
    rw [Record.isField, Record.field?, List.find?_isSome, fields_layout] at h
    obtain ⟨f, hf, hkey⟩ := h
    obtain ⟨m, -, rfl⟩ := List.mem_map.mp hf
    exact ⟨m, m.key_field.symm.trans (eq_of_beq hkey)⟩
  · rintro ⟨m, rfl⟩
    rw [Record.isField, m.field?_key]
    rfl

/-! ## Reading by key -/

/-- The document that the values of some fields tell. -/
def ofSlots (slots : Slots) : Except Fault Document := do
  return {
    name := ← slots.get "name" Value.text
    kind := ← slots.getD "bucketType" Kind.reader .default
    quotaMb := ← slots.get "ramQuotaMB" Value.uint64
    replicas := ← slots.getD "replicaNumber" Value.uint8 0
    indexReplicas := ← slots.getD "replicaIndex" Value.flag false
    auth := ← slots.getD "authType" Auth.reader .none
    password := ← slots.getD "saslPassword" Value.text ""
    port := ← slots.getD "proxyPort" Value.uint16 0
    flushEnabled := ← slots.getD "flushEnabled" Value.flag false }

theorem reader_eq (v : Value) : reader v = layout.read v >>= ofSlots := rfl

/-- Each field that is there tells what the document has, and each other has its default. -/
structure Tells (slots : Slots) (d : Document) : Prop where
  name : slots.get "name" Value.text = .ok d.name
  kind : slots.getD "bucketType" Kind.reader .default = .ok d.kind
  quotaMb : slots.get "ramQuotaMB" Value.uint64 = .ok d.quotaMb
  replicas : slots.getD "replicaNumber" Value.uint8 0 = .ok d.replicas
  indexReplicas : slots.getD "replicaIndex" Value.flag false = .ok d.indexReplicas
  auth : slots.getD "authType" Auth.reader .none = .ok d.auth
  password : slots.getD "saslPassword" Value.text "" = .ok d.password
  port : slots.getD "proxyPort" Value.uint16 0 = .ok d.port
  flushEnabled : slots.getD "flushEnabled" Value.flag false = .ok d.flushEnabled

variable {slots slots' named : Slots} {d : Document} {ms : List (Bytes × Value)}

theorem ofSlots_eq_ok_iff : ofSlots slots = .ok d ↔ Tells slots d := by
  constructor
  · intro h
    obtain ⟨name, hname, h⟩ := bind_eq_ok.mp h
    obtain ⟨kind, hkind, h⟩ := bind_eq_ok.mp h
    obtain ⟨quotaMb, hquotaMb, h⟩ := bind_eq_ok.mp h
    obtain ⟨replicas, hreplicas, h⟩ := bind_eq_ok.mp h
    obtain ⟨indexReplicas, hindexReplicas, h⟩ := bind_eq_ok.mp h
    obtain ⟨auth, hauth, h⟩ := bind_eq_ok.mp h
    obtain ⟨password, hpassword, h⟩ := bind_eq_ok.mp h
    obtain ⟨port, hport, h⟩ := bind_eq_ok.mp h
    obtain ⟨flushEnabled, hflushEnabled, h⟩ := bind_eq_ok.mp h
    cases h
    exact ⟨hname, hkind, hquotaMb, hreplicas, hindexReplicas, hauth, hpassword, hport,
      hflushEnabled⟩
  · intro h
    simp only [ofSlots, h.name, h.kind, h.quotaMb, h.replicas, h.indexReplicas, h.auth, h.password,
      h.port, h.flushEnabled, ok_bind]
    rfl

/-! ## Reading a map -/

/-- What is told depends on the values by key only, and not on how they are spelled. -/
theorem Tells.congr (ht : Tells slots d) {a : Auth}
    (h : ∀ m : Member, m ≠ .auth →
      Option.Rel Value.Alike (slots.lookup m.key) (slots'.lookup m.key))
    (hauth : slots'.getD "authType" Auth.reader .none = .ok a) :
    Tells slots' { d with auth := a } where
  name := (Slots.get_congr Value.blind_text (h .name nofun)).symm.trans ht.name
  kind := (Slots.getD_congr (Value.blind_variant _) (h .kind nofun)).symm.trans ht.kind
  quotaMb := (Slots.get_congr Value.blind_uint64 (h .quotaMb nofun)).symm.trans ht.quotaMb
  replicas := (Slots.getD_congr Value.blind_uint8 (h .replicas nofun)).symm.trans ht.replicas
  indexReplicas :=
    (Slots.getD_congr Value.blind_flag (h .indexReplicas nofun)).symm.trans ht.indexReplicas
  auth := hauth
  password := (Slots.getD_congr Value.blind_text (h .password nofun)).symm.trans ht.password
  port := (Slots.getD_congr Value.blind_uint16 (h .port nofun)).symm.trans ht.port
  flushEnabled :=
    (Slots.getD_congr Value.blind_flag (h .flushEnabled nofun)).symm.trans ht.flushEnabled

theorem rel_alike_of_eq {found found' : Option Value} (h : found = found') :
    Option.Rel Value.Alike found found' := by
  subst h
  cases found with
  | none => exact .none
  | some v => exact .some (.refl v)

theorem Tells.congr_alike (ht : Tells slots d)
    (h : ∀ m : Member, Option.Rel Value.Alike (slots.lookup m.key) (slots'.lookup m.key)) :
    Tells slots' d := by
  have hauth : slots'.getD "authType" Auth.reader .none = .ok d.auth :=
    (Slots.getD_congr (Value.blind_variant _) (h .auth)).symm.trans ht.auth
  exact ht.congr (fun m _ => h m) hauth

theorem Tells.congr_lookup (ht : Tells slots d)
    (h : ∀ m : Member, slots.lookup m.key = slots'.lookup m.key) : Tells slots' d :=
  ht.congr_alike fun m => rel_alike_of_eq (h m)

theorem Tells.congr_but_auth (ht : Tells slots d) {a : Auth}
    (h : ∀ m : Member, m ≠ .auth → slots.lookup m.key = slots'.lookup m.key)
    (hauth : slots'.getD "authType" Auth.reader .none = .ok a) :
    Tells slots' { d with auth := a } :=
  ht.congr (fun m hm => rel_alike_of_eq (h m hm)) hauth

/-- No member is there twice. -/
def Once (named : Slots) : Prop := ∀ m : Member, (named.map (·.1)).count m.key ≤ 1

theorem once_iff : Once named ↔ ((layout.known named).map (·.1)).Nodup := by
  have hfilter : (layout.known named).map (·.1) = (named.map (·.1)).filter layout.isField := by
    rw [List.filter_map]
    rfl
  rw [hfilter, List.nodup_iff_count_le_one]
  constructor
  · intro h key
    by_cases hkey : layout.isField key = true
    · obtain ⟨m, rfl⟩ := isField_iff.mp hkey
      rw [List.count_filter hkey]
      exact h m
    · rw [List.count_eq_zero_of_not_mem fun hmem => hkey (List.mem_filter.mp hmem).2]
      exact Nat.zero_le 1
  · intro h m
    rw [← List.count_filter (isField_iff.mpr ⟨m, rfl⟩)]
    exact h m.key

theorem Tells.check (ht : Tells named d) {m : Member} {v : Value}
    (h : named.lookup m.key = some v) : m.field.check v = .ok () := by
  cases m with
  | name => exact Slots.check_of_get h ht.name
  | kind => exact Slots.check_of_getD h ht.kind
  | quotaMb => exact Slots.check_of_get h ht.quotaMb
  | replicas => exact Slots.check_of_getD h ht.replicas
  | indexReplicas => exact Slots.check_of_getD h ht.indexReplicas
  | auth => exact Slots.check_of_getD h ht.auth
  | password => exact Slots.check_of_getD h ht.password
  | port => exact Slots.check_of_getD h ht.port
  | flushEnabled => exact Slots.check_of_getD h ht.flushEnabled

theorem Tells.complete (ht : Tells named d) : layout.missing? named = none := by
  obtain ⟨name, hname⟩ := Slots.exists_lookup ht.name
  obtain ⟨quotaMb, hquotaMb⟩ := Slots.exists_lookup ht.quotaMb
  simp [Record.missing?, layout, Field.required, Field.optional, hname, hquotaMb]

/-- **A map is read as a document just if no member is there twice and the members tell it.** -/
theorem reader_object_iff (h : Named ms named) :
    reader (.object ms true) = .ok d ↔ Once named ∧ Tells named d := by
  rw [reader_eq, bind_eq_ok]
  constructor
  · rintro ⟨slots, hread, htells⟩
    obtain ⟨hsuits, rfl⟩ := (Record.read_object_iff h).mp hread
    refine ⟨once_iff.mpr hsuits.once, ?_⟩
    refine (ofSlots_eq_ok_iff.mp htells).congr_lookup fun m => ?_
    exact Record.lookup_reverse_known hsuits.once (isField_iff.mpr ⟨m, rfl⟩)
  · rintro ⟨honce, htells⟩
    have hnodup := once_iff.mp honce
    refine ⟨_, (Record.read_object_iff h).mpr ⟨⟨?_, hnodup, ?_⟩, rfl⟩, ?_⟩
    · rintro ⟨key, v⟩ hm
      obtain ⟨m, rfl⟩ := isField_iff.mp (List.mem_filter.mp hm).2
      refine ⟨m.field, m.field?_key, htells.check ?_⟩
      have hlookup : (layout.known named).lookup m.key = named.lookup m.key :=
        Record.lookup_filter (isField_iff.mpr ⟨m, rfl⟩)
      rw [← hlookup, Record.lookup_of_mem hnodup hm]
    · exact htells.complete
    · refine ofSlots_eq_ok_iff.mpr (htells.congr_lookup fun m => ?_)
      exact (Record.lookup_reverse_known hnodup (isField_iff.mpr ⟨m, rfl⟩)).symm

/-! ## Reading a list -/

/-- The items of a list, each with the key of its field. -/
def keyed (items : List Value) : Slots :=
  ((Member.all.take items.length).map Member.key).zip items

variable {items : List Value}

theorem keys_keyed (items : List Value) :
    (keyed items).map (·.1) = (Member.all.take items.length).map Member.key := by
  refine List.map_fst_zip ?_
  rw [List.length_map, List.length_take]
  exact Nat.min_le_left _ _

theorem nodup_keyed (items : List Value) : ((keyed items).map (·.1)).Nodup := by
  rw [keys_keyed, List.map_take]
  exact Member.nodup_keys.sublist (List.take_sublist _ _)

theorem mem_keyed {m : Member} {v : Value} :
    (m.key, v) ∈ keyed items ↔ (m, v) ∈ (Member.all.take items.length).zip items := by
  rw [keyed, List.zip_map_left, List.mem_map]
  constructor
  · rintro ⟨⟨n, u⟩, hmem, he⟩
    obtain ⟨hkey, rfl⟩ := Prod.mk.inj he
    exact Member.key_injective hkey ▸ hmem
  · intro h
    exact ⟨(m, v), h, rfl⟩

/-- The members past the end of a list that tells a document have defaults. -/
theorem Tells.mandatory_eq_false (ht : Tells (keyed items) d) {m : Member}
    (hm : m ∈ Member.all.drop items.length) : m.field.mandatory = false := by
  have hout : ∀ v, (keyed items).lookup m.key ≠ some v := by
    intro v hv
    have hzip := mem_keyed.mp (Record.mem_of_lookup hv)
    exact List.disjoint_take_drop Member.nodup_all (Nat.le_refl _) (List.of_mem_zip hzip).1 hm
  cases m with
  | name =>
    obtain ⟨v, hv⟩ := Slots.exists_lookup ht.name
    exact absurd hv (hout v)
  | quotaMb =>
    obtain ⟨v, hv⟩ := Slots.exists_lookup ht.quotaMb
    exact absurd hv (hout v)
  | _ => rfl

/-- A list is read as the document that its items tell as the first fields. -/
theorem reader_array (hlength : items.length ≤ Member.all.length) (ht : Tells (keyed items) d) :
    reader (.array items true) = .ok d := by
  have hchecks : List.Forall₂ (fun f v => f.check v = .ok ())
      (layout.fields.take items.length) items := by
    rw [fields_layout, ← List.map_take, List.forall₂_map_left_iff, List.forall₂_iff_zip]
    refine ⟨List.length_take_of_le hlength, fun {m v} hmem => ?_⟩
    exact ht.check (Record.lookup_of_mem (nodup_keyed items) (mem_keyed.mpr hmem))
  have hdefaults : ∀ f ∈ layout.fields.drop items.length, f.mandatory = false := by
    rw [fields_layout, ← List.map_drop]
    exact List.forall_mem_map.mpr fun m hm => ht.mandatory_eq_false hm
  have hkeys : (layout.fields.take items.length).map (·.key) =
      (Member.all.take items.length).map Member.key := by
    rw [fields_layout, ← List.map_take, List.map_map]
    exact List.map_congr_left fun m _ => m.key_field
  have hread : layout.read (.array items true) = .ok (keyed items) := by
    rw [keyed, ← hkeys]
    exact Record.readItems_zip hchecks hdefaults
  rw [reader_eq, hread, ok_bind]
  exact ofSlots_eq_ok_iff.mpr ht

end Document

end Bucket

end BucketAdmin
