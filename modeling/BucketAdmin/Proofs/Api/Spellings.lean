import Mathlib.Logic.Relation
import BucketAdmin.Proofs.DocumentMembers
import BucketAdmin.Proofs.RoundTrip

/-!
# Bodies that carry the same settings

A body carries settings if it is a map or a list whose members say what the settings have
(`Settings.DescribedBy`, `Settings.ListedBy`), in any spelling, and a member is left out only where
its default is meant. Every such body is read as the settings, and so is every map that comes from
a readable one by edits of what does not count (`Document.Edit`): the order of the members, those of
other names, the spelling of strings, and the way to authenticate.
-/

namespace BucketAdmin

open Json
open Json.Record (Slots Named)

namespace Json.Value

variable {text : String} {raw : Bytes}

theorem alike_ofText (h : SpellsText text.toList raw) : Alike (.string raw) (.ofText text) :=
  .text (h.unquote?.trans (unquote?_quote text).symm)

theorem text_of_spells (h : SpellsText text.toList raw) : Value.text (.string raw) = .ok text :=
  (blind_text (alike_ofText h)).trans (text_ofText text)

end Json.Value

namespace Bucket

open Document (Member Once Tells keyed)

/-! ## What describes settings -/

section

variable {s : Settings} {raw : Bytes} {named : Slots} {items : List Value}

theorem Kind.reader_of_spells {k : Kind} (h : SpellsText k.text.toList raw) :
    Kind.reader (.string raw) = .ok k :=
  (Value.blind_variant _ (Value.alike_ofText h)).trans k.reader_ofText

theorem Auth.reader_of_spells {a : Auth} (h : SpellsText a.text.toList raw) :
    Auth.reader (.string raw) = .ok a :=
  (Value.blind_variant _ (Value.alike_ofText h)).trans a.reader_ofText

namespace Settings

/-- The value says of the member what the settings have. What it says of authentication may be
anything that can be said. -/
inductive Carries (s : Settings) : Member → Value → Prop
  | name {raw : Bytes} (h : SpellsText s.name.text.toList raw) : Carries s .name (.string raw)
  | kind {raw : Bytes} (h : SpellsText s.kind.text.toList raw) : Carries s .kind (.string raw)
  | quotaMb : Carries s .quotaMb (.ofNat s.quotaMb.toNat)
  | replicas : Carries s .replicas (.ofNat s.replicas.toNat)
  | indexReplicas : Carries s .indexReplicas (.bool s.indexReplicas)
  | auth (a : Auth) {raw : Bytes} (h : SpellsText a.text.toList raw) : Carries s .auth (.string raw)
  | password {raw : Bytes} (h : SpellsText s.password.toList raw) :
      Carries s .password (.string raw)
  | port : Carries s .port (.ofNat s.port.toNat)
  | flushEnabled : Carries s .flushEnabled (.bool s.flushEnabled)

/-- The settings have what is meant where the member is left out. -/
def Omits (s : Settings) : Member → Prop
  | .name | .quotaMb => False
  | .kind => s.kind = .default
  | .replicas => s.replicas = 0
  | .indexReplicas => s.indexReplicas = false
  | .auth => True
  | .password => s.password = ""
  | .port => s.port = 0
  | .flushEnabled => s.flushEnabled = false

/-- The members of a map describe the settings. Those of other names are free. -/
structure DescribedBy (s : Settings) (named : Slots) : Prop where
  once : Once named
  carries : ∀ (m : Member) (v : Value), (m.key, v) ∈ named → s.Carries m v
  omits : ∀ m : Member, m.key ∉ named.map (·.1) → s.Omits m

/-- The items of a list describe the settings: they are the first members in order. As the name and
the quota are never left out, there are three at least. -/
structure ListedBy (s : Settings) (items : List Value) : Prop where
  carries : List.Forall₂ s.Carries (Member.all.take items.length) items
  omits : ∀ m ∈ Member.all.drop items.length, s.Omits m

theorem DescribedBy.tells (h : s.DescribedBy named) :
    ∃ a, Tells named { Document.ofSettings s with auth := a } := by
  obtain ⟨-, hcarries, homits⟩ := h
  obtain ⟨a, hauth⟩ : ∃ a, named.getD "authType" Auth.reader .none = .ok a := by
    unfold Slots.getD
    split
    · next v hv =>
      cases hcarries .auth v (Record.mem_of_lookup hv) with
      | auth a h => exact ⟨a, Auth.reader_of_spells h⟩
    · exact ⟨.none, rfl⟩
  refine ⟨a, ?_, ?_, ?_, ?_, ?_, hauth, ?_, ?_, ?_⟩
  · refine Slots.get_of_mem (fun v hv => ?_) (homits .name)
    cases hcarries .name v hv with
    | name h => exact Value.text_of_spells h
  · refine Slots.getD_of_mem (fun v hv => ?_) (homits .kind)
    cases hcarries .kind v hv with
    | kind h => exact Kind.reader_of_spells h
  · refine Slots.get_of_mem (fun v hv => ?_) (homits .quotaMb)
    cases hcarries .quotaMb v hv
    exact Value.uint64_ofNat _
  · refine Slots.getD_of_mem (fun v hv => ?_) (homits .replicas)
    cases hcarries .replicas v hv
    exact Value.uint8_ofNat _
  · refine Slots.getD_of_mem (fun v hv => ?_) (homits .indexReplicas)
    cases hcarries .indexReplicas v hv
    exact Value.flag_bool _
  · refine Slots.getD_of_mem (fun v hv => ?_) (homits .password)
    cases hcarries .password v hv with
    | password h => exact Value.text_of_spells h
  · refine Slots.getD_of_mem (fun v hv => ?_) (homits .port)
    cases hcarries .port v hv
    exact Value.uint16_ofNat _
  · refine Slots.getD_of_mem (fun v hv => ?_) (homits .flushEnabled)
    cases hcarries .flushEnabled v hv
    exact Value.flag_bool _

theorem ListedBy.length_le (h : s.ListedBy items) : items.length ≤ Member.all.length := by
  have hlength := h.carries.length_eq
  rw [List.length_take] at hlength
  omega

theorem ListedBy.describedBy (h : s.ListedBy items) : s.DescribedBy (keyed items) where
  once := fun m => List.nodup_iff_count_le_one.mp (Document.nodup_keyed items) m.key
  carries := fun m v hmem =>
    (List.forall₂_iff_zip.mp h.carries).2 (Document.mem_keyed.mp hmem)
  omits := by
    intro m hm
    refine h.omits m ?_
    have hall := m.mem_all
    rw [← List.take_append_drop items.length Member.all] at hall
    rcases List.mem_append.mp hall with htake | hdrop
    · rw [Document.keys_keyed] at hm
      exact absurd (List.mem_map_of_mem htake) hm
    · exact hdrop

end Settings

end

namespace Document

/-! ## Edits -/

/-- A change to the members of a map that does not change what settings they describe. -/
inductive Edit : Slots → Slots → Prop
  | reorder {named named' : Slots} (h : named.Perm named') : Edit named named'
  | insert {named : Slots} {key : String} (v : Value) (h : ∀ m : Member, m.key ≠ key) :
      Edit named ((key, v) :: named)
  | drop {named : Slots} {key : String} (v : Value) (h : ∀ m : Member, m.key ≠ key) :
      Edit ((key, v) :: named) named
  | respell {named : Slots} {key text : String} {raw raw' : Bytes}
      (h : SpellsText text.toList raw) (h' : SpellsText text.toList raw') :
      Edit ((key, .string raw) :: named) ((key, .string raw') :: named)
  | addAuth {named : Slots} {a : Auth} {raw : Bytes} (h : SpellsText a.text.toList raw)
      (habsent : Member.auth.key ∉ named.map (·.1)) :
      Edit named ((Member.auth.key, .string raw) :: named)
  | changeAuth {named : Slots} {a : Auth} {raw : Bytes} (v : Value)
      (h : SpellsText a.text.toList raw) :
      Edit ((Member.auth.key, v) :: named) ((Member.auth.key, .string raw) :: named)
  | dropAuth {named : Slots} (v : Value) : Edit ((Member.auth.key, v) :: named) named

variable {named named' : Slots} {d : Document} {key : String} {v : Value} {a : Auth}

theorem lookup_perm_of_once (h : named.Perm named') (honce : Once named) (m : Member) :
    named.lookup m.key = named'.lookup m.key := by
  have hfield := isField_iff.mpr ⟨m, rfl⟩
  have hknown : (layout.known named).Perm (layout.known named') := h.filter _
  have hlookup : (layout.known named).lookup m.key = (layout.known named').lookup m.key :=
    Record.lookup_perm hknown (once_iff.mp honce)
  unfold Record.known at hlookup
  rwa [Record.lookup_filter hfield, Record.lookup_filter hfield] at hlookup

theorem once_perm (h : named.Perm named') (honce : Once named) : Once named' := by
  intro m
  rw [← (h.map _).count_eq]
  exact honce m

theorem once_cons_of_ne (h : ∀ m : Member, m.key ≠ key) :
    Once ((key, v) :: named) ↔ Once named := by
  refine forall_congr' fun m => ?_
  rw [List.map_cons, List.count_cons_of_ne (h m).symm]

theorem lookup_cons_of_ne {m : Member} (h : m.key ≠ key) :
    List.lookup m.key ((key, v) :: named) = named.lookup m.key := by
  rw [Record.lookup_cons, if_neg h.symm]

theorem lookup_cons_auth {m : Member} (h : m ≠ .auth) :
    List.lookup m.key ((Member.auth.key, v) :: named) = named.lookup m.key :=
  lookup_cons_of_ne fun he => h (Member.key_injective he)

theorem getD_cons_auth (h : Auth.reader v = .ok a) :
    Slots.getD ((Member.auth.key, v) :: named) Member.auth.key Auth.reader .none = .ok a := by
  rw [Slots.getD, Record.lookup_cons, if_pos rfl]
  exact h

theorem Once.of_cons {m : String × Value} (h : Once (m :: named)) : Once named := by
  intro n
  have hcount := h n
  rw [List.map_cons, List.count_cons] at hcount
  omega

theorem Once.not_mem {m : Member} (h : Once ((m.key, v) :: named)) : m.key ∉ named.map (·.1) := by
  have hcount := h m
  rw [List.map_cons, List.count_cons_self] at hcount
  exact List.count_eq_zero.mp (by omega)

theorem once_cons_of_not_mem (h : key ∉ named.map (·.1)) (honce : Once named) :
    Once ((key, v) :: named) := by
  intro m
  have hcount := honce m
  rw [List.map_cons, List.count_cons]
  split
  · next he =>
    obtain rfl : key = m.key := eq_of_beq he
    have hzero := List.count_eq_zero_of_not_mem h
    omega
  · exact hcount

/-- **What an edit keeps**: what the members tell but for authentication. -/
theorem Edit.tells (h : Edit named named') (honce : Once named) (ht : Tells named d) :
    ∃ a, Once named' ∧ Tells named' { d with auth := a } := by
  cases h with
  | reorder h =>
    exact ⟨d.auth, once_perm h honce, ht.congr_lookup fun m => lookup_perm_of_once h honce m⟩
  | insert v h =>
    exact ⟨d.auth, (once_cons_of_ne h).mpr honce,
      ht.congr_lookup fun m => (lookup_cons_of_ne (h m)).symm⟩
  | drop v h =>
    exact ⟨d.auth, (once_cons_of_ne h).mp honce,
      ht.congr_lookup fun m => lookup_cons_of_ne (h m)⟩
  | @respell rest key text raw raw' h h' =>
    refine ⟨d.auth, honce, ht.congr_alike fun m => ?_⟩
    rw [Record.lookup_cons, Record.lookup_cons]
    split
    · exact .some (.text (h.unquote?.trans h'.unquote?.symm))
    · exact rel_alike_of_eq rfl
  | @addAuth _ a raw h habsent =>
    refine ⟨a, once_cons_of_not_mem habsent honce, ht.congr_but_auth (fun m hm => ?_) ?_⟩
    · exact (lookup_cons_auth hm).symm
    · exact getD_cons_auth (Auth.reader_of_spells h)
  | @changeAuth rest a raw v h =>
    refine ⟨a, honce, ht.congr_but_auth (fun m hm => ?_) ?_⟩
    · rw [lookup_cons_auth hm, lookup_cons_auth hm]
    · exact getD_cons_auth (Auth.reader_of_spells h)
  | dropAuth v =>
    refine ⟨.none, honce.of_cons, ht.congr_but_auth (fun m hm => lookup_cons_auth hm) ?_⟩
    have hnone : named'.lookup Member.auth.key = none :=
      Record.lookup_eq_none_iff.mpr honce.not_mem
    change Slots.getD named' Member.auth.key Auth.reader .none = .ok .none
    rw [Slots.getD, hnone]

end Document

end Bucket

namespace Api

open Bucket (Auth Document Settings)
open Bucket.Document (Edit Member Once Tells)
open Relation (ReflTransGen)

/-! ## Bodies -/

/-- The body is a map with these members, each key spelled in some way. -/
def MapText (named : Slots) (body : Bytes) : Prop :=
  ∃ ms, List.Forall₂ (fun m n => SpellsText n.1.toList m.1 ∧ m.2 = n.2) ms named ∧
    Spells (.object ms true) body

variable {named named' : Slots} {items : List Value} {body body' : Bytes} {s : Settings}
  {d : Document}

theorem mapText_iff :
    MapText named body ↔ ∃ ms, Named ms named ∧ Spells (.object ms true) body := by
  refine exists_congr fun ms => and_congr_left fun hspells => ?_
  constructor
  · intro h
    exact h.imp fun m n ⟨hkey, hvalue⟩ => ⟨hkey.unquote?, hvalue⟩
  · intro h
    have hkeys := (List.forall₂_and_left _ _).mpr ⟨hspells.object_inv.2, h⟩
    exact hkeys.imp fun m n ⟨htext, hkey, hvalue⟩ => ⟨spellsText_iff.mpr ⟨htext, hkey⟩, hvalue⟩

/-- What the writer makes of members is a map with them. -/
theorem mapText_render (h : ∀ m ∈ named, ReadsBack m.2) :
    MapText named (Value.ofMembers named).render := by
  have hspells : Spells (.ofMembers named) (Value.ofMembers named).render :=
    Reads.spells (readsBack_ofMembers h)
  refine ⟨_, ?_, hspells⟩
  refine List.forall₂_map_left_iff.mpr (List.forall₂_same.mpr fun m _ => ?_)
  exact ⟨spellsText_quote m.1, rfl⟩

theorem readBody_eq_ok_iff {α : Type} {reader : Reader α} {a : α} :
    readBody reader body = .ok a ↔
      body.length ≤ maxBodySize ∧ ∃ v, Spells v body ∧ reader v = .ok a := by
  unfold readBody
  split
  · next h => simp [Nat.not_le.mpr h]
  · next h => rw [mapError_eq_ok, read_eq_ok_iff, and_iff_right (Nat.not_lt.mp h)]

theorem decodeSettings_eq_ok_iff :
    decodeSettings body = .ok s ↔ body.length ≤ maxBodySize ∧
      ∃ v d, Spells v body ∧ Document.reader v = .ok d ∧ settingsOf d = .ok s := by
  rw [decodeSettings, bind_eq_ok]
  constructor
  · rintro ⟨d, hd, hs⟩
    obtain ⟨hsize, v, hv, hd⟩ := readBody_eq_ok_iff.mp hd
    exact ⟨hsize, v, d, hv, hd, hs⟩
  · rintro ⟨hsize, v, d, hv, hd, hs⟩
    exact ⟨d, readBody_eq_ok_iff.mpr ⟨hsize, v, hv, hd⟩, hs⟩

/-- What a map carries is up to what its members tell. -/
theorem decodeSettings_mapText_iff (h : MapText named body) :
    decodeSettings body = .ok s ↔ body.length ≤ maxBodySize ∧
      ∃ d, Once named ∧ Tells named d ∧ settingsOf d = .ok s := by
  obtain ⟨ms, hnamed, hspells⟩ := mapText_iff.mp h
  rw [decodeSettings_eq_ok_iff]
  refine and_congr_right fun _ => ?_
  constructor
  · rintro ⟨v, d, hv, hd, hs⟩
    obtain rfl : Value.object ms true = v := by
      have hparse := hspells.parse.symm.trans hv.parse
      exact (Prod.mk.inj hparse).1
    obtain ⟨honce, htells⟩ := (Document.reader_object_iff hnamed).mp hd
    exact ⟨d, honce, htells, hs⟩
  · rintro ⟨d, honce, htells, hs⟩
    exact ⟨_, d, hspells, (Document.reader_object_iff hnamed).mpr ⟨honce, htells⟩, hs⟩

/-- What a document says of authentication is left aside. -/
theorem settingsOf_auth (d : Document) (a : Auth) :
    settingsOf { d with auth := a } = settingsOf d :=
  rfl

theorem decodeSettings_mapText (h : MapText named body) (hvalid : s.Valid)
    (hnamed : s.DescribedBy named) (hsize : body.length ≤ maxBodySize) :
    decodeSettings body = .ok s := by
  obtain ⟨a, htells⟩ := hnamed.tells
  have hs := (settingsOf_auth _ a).trans (settingsOf_ofSettings hvalid)
  exact (decodeSettings_mapText_iff h).mpr ⟨hsize, _, hnamed.once, htells, hs⟩

theorem decodeSettings_list (h : Spells (.array items true) body) (hvalid : s.Valid)
    (hitems : s.ListedBy items) (hsize : body.length ≤ maxBodySize) :
    decodeSettings body = .ok s := by
  obtain ⟨a, htells⟩ := hitems.describedBy.tells
  have hd := Document.reader_array hitems.length_le htells
  have hs := (settingsOf_auth _ a).trans (settingsOf_ofSettings hvalid)
  exact decodeSettings_eq_ok_iff.mpr ⟨hsize, _, _, h, hd, hs⟩

/-- Edits keep what the members tell but for authentication. -/
theorem tells_edits (h : ReflTransGen Edit named named') (honce : Once named)
    (ht : Tells named d) : ∃ a, Once named' ∧ Tells named' { d with auth := a } := by
  induction h with
  | refl => exact ⟨d.auth, honce, ht⟩
  | tail _ hedit ih =>
    obtain ⟨b, honce', ht'⟩ := ih
    obtain ⟨a, honce'', ht''⟩ := hedit.tells honce' ht'
    exact ⟨a, honce'', ht''⟩

theorem decodeSettings_edits (h : MapText named body) (hs : decodeSettings body = .ok s)
    (hedits : ReflTransGen Edit named named') (h' : MapText named' body')
    (hsize : body'.length ≤ maxBodySize) : decodeSettings body' = .ok s := by
  obtain ⟨-, d, honce, htells, hs⟩ := (decodeSettings_mapText_iff h).mp hs
  obtain ⟨a, honce', htells'⟩ := tells_edits hedits honce htells
  exact (decodeSettings_mapText_iff h').mpr
    ⟨hsize, _, honce', htells', (settingsOf_auth d a).trans hs⟩

/-- A body that carries settings is a map or a list. -/
theorem mapText_or_list (h : decodeSettings body = .ok s) :
    (∃ named, MapText named body) ∨ ∃ items, Spells (.array items true) body := by
  obtain ⟨-, v, d, hv, hd, -⟩ := decodeSettings_eq_ok_iff.mp h
  obtain ⟨slots, hread, -⟩ := bind_eq_ok.mp hd
  cases v with
  | object ms closed =>
    obtain ⟨rfl, -⟩ := hv.object_inv
    obtain ⟨named, hnamed⟩ := Record.exists_named hread
    exact .inl ⟨named, mapText_iff.mpr ⟨ms, hnamed, hv⟩⟩
  | array items closed =>
    obtain rfl := hv.array_inv
    exact .inr ⟨items, hv⟩
  | _ => cases hread

/-- **All spellings of a document are read alike.** A body within the limit that describes valid
settings, as a map or as a list, carries these settings; edits to the members of a map that carries
settings lead to maps that carry the same ones; and bodies that carry settings are maps or lists. -/
theorem decodeSettings_spellings :
    (∀ (s : Settings) (named : Slots) (body : Bytes), s.Valid → s.DescribedBy named →
      MapText named body → body.length ≤ maxBodySize → decodeSettings body = .ok s) ∧
    (∀ (s : Settings) (items : List Value) (body : Bytes), s.Valid → s.ListedBy items →
      Spells (.array items true) body → body.length ≤ maxBodySize →
      decodeSettings body = .ok s) ∧
    (∀ (s : Settings) (named named' : Slots) (body body' : Bytes), MapText named body →
      decodeSettings body = .ok s → ReflTransGen Edit named named' → MapText named' body' →
      body'.length ≤ maxBodySize → decodeSettings body' = .ok s) ∧
    ∀ (s : Settings) (body : Bytes), decodeSettings body = .ok s →
      (∃ named, MapText named body) ∨ ∃ items, Spells (.array items true) body := by
  refine ⟨?_, ?_, ?_, ?_⟩
  · intro s named body hvalid hnamed h hsize
    exact decodeSettings_mapText h hvalid hnamed hsize
  · intro s items body hvalid hitems h hsize
    exact decodeSettings_list h hvalid hitems hsize
  · intro s named named' body body' h hs hedits h' hsize
    exact decodeSettings_edits h hs hedits h' hsize
  · intro s body h
    exact mapText_or_list h

/-- Settings that are blank but for their name. -/
def plainSettings : Settings := .blank ⟨"c", by decide, by decide, by decide⟩

/-- A value that no member takes. -/
def otherValue : Value := .ofList [.ofMembers [], .bool true]

/-- Members in no order, with one of another name, an escape, and a way to authenticate. -/
def laxMembers : Slots := [
  ("z", otherValue),
  ("ramQuotaMB", .ofNat 100),
  ("name", .string (Utf8.encode "\\u0063")),
  ("authType", .ofText "sasl")]

/-- The members of `laxMembers` with blanks and an escaped key. -/
def laxTexts : List SpacedMember := [
  ⟨[], quote "z", [0x20], otherValue, otherValue.render⟩,
  ⟨[0x0A], quote "ramQuotaMB", [], .ofNat 100, (Value.ofNat 100).render⟩,
  ⟨[], Utf8.encode "\\u006eame", [], .string (Utf8.encode "\\u0063"),
    0x22 :: Utf8.encode "\\u0063" ++ [0x22]⟩,
  ⟨[], quote "authType", [], .ofText "sasl", (Value.ofText "sasl").render⟩]

def laxBody : Bytes :=
  Utf8.encode ("\x7b\"z\" :[\x7b\x7d,true],\n\"ramQuotaMB\":100," ++
    "\"\\u006eame\":\"\\u0063\",\"authType\":\"sasl\"\x7d")

/-- The members that cannot be left out, in order. -/
def terseMembers : Slots := [("name", .ofText "c"), ("ramQuotaMB", .ofNat 100)]

def terseBody : Bytes := Utf8.encode "\x7b\"name\":\"c\",\"ramQuotaMB\":100\x7d"

/-- The shortest list that describes settings. -/
def listItems : List Value := [.ofText "c", .ofText "couchbase", .ofNat 100]

def listBody : Bytes := Utf8.encode "[\"c\",\"couchbase\",100]"

theorem spellsText_c : SpellsText "c".toList (Utf8.encode "\\u0063") := by
  have hlegal : (Utf8.encode "\\u0063").foldlM Escape.step? .none = some .none := by
    decide +kernel
  exact spellsText_iff.mpr ⟨isText_of_legal hlegal, by decide +kernel⟩

theorem spellsText_name : SpellsText "name".toList (Utf8.encode "\\u006eame") := by
  have hlegal : (Utf8.encode "\\u006eame").foldlM Escape.step? .none = some .none := by
    decide +kernel
  exact spellsText_iff.mpr ⟨isText_of_legal hlegal, by decide +kernel⟩

theorem mapText_laxBody : MapText laxMembers laxBody := by
  have hbytes : laxBody =
      0x7B :: ([] ++ Value.commaSeparated (laxTexts.map (·.bytes)) ++ [0x7D]) := by decide +kernel
  have hspace : IsBlank [0x20] := List.forall_mem_singleton.mpr rfl
  have hline : IsBlank [0x0A] := List.forall_mem_singleton.mpr rfl
  refine ⟨laxTexts.map fun m => (m.key, m.value), ?_, ?_⟩
  · exact .cons ⟨spellsText_quote "z", rfl⟩ (.cons ⟨spellsText_quote "ramQuotaMB", rfl⟩
      (.cons ⟨spellsText_name, rfl⟩ (.cons ⟨spellsText_quote "authType", rfl⟩ .nil)))
  · rw [hbytes]
    refine .object isBlank_nil ?_ ?_ <;> simp only [laxTexts, List.forall_mem_cons]
    · exact ⟨⟨isBlank_nil, (spellsText_quote _).isText, hspace⟩,
        ⟨hline, (spellsText_quote _).isText, isBlank_nil⟩,
        ⟨isBlank_nil, spellsText_name.isText, isBlank_nil⟩,
        ⟨isBlank_nil, (spellsText_quote _).isText, isBlank_nil⟩, List.forall_mem_nil _⟩
    · have hempty : ReadsBack (.ofMembers []) := readsBack_ofMembers (List.forall_mem_nil _)
      have hother : ReadsBack otherValue :=
        readsBack_ofList (List.forall_mem_cons.mpr
          ⟨hempty, List.forall_mem_singleton.mpr (reads_bool true)⟩)
      exact ⟨hother.spells, (reads_ofNat 100).spells, .string spellsText_c.isText,
        (reads_ofText "sasl").spells, List.forall_mem_nil _⟩

theorem mapText_terseBody : MapText terseMembers terseBody := by
  have hbytes : terseBody = (Value.ofMembers terseMembers).render := by decide +kernel
  rw [hbytes]
  refine mapText_render ?_
  simp only [terseMembers, List.forall_mem_cons]
  exact ⟨reads_ofText "c", reads_ofNat 100, List.forall_mem_nil _⟩

theorem spells_listBody : Spells (.array listItems true) listBody := by
  have hbytes : listBody = (Value.ofList listItems).render := by decide +kernel
  rw [hbytes]
  refine Reads.spells (readsBack_ofList ?_)
  simp only [listItems, List.forall_mem_cons]
  exact ⟨reads_ofText "c", reads_ofText "couchbase", reads_ofNat 100, List.forall_mem_nil _⟩

theorem key_ne_z (m : Member) : m.key ≠ "z" := by
  cases m <;> decide

theorem describedBy_laxMembers : plainSettings.DescribedBy laxMembers where
  once := by
    intro m
    cases m <;> decide +kernel
  carries := by
    intro m v h
    simp only [laxMembers, List.mem_cons, List.not_mem_nil, Prod.mk.injEq, or_false] at h
    rcases h with ⟨hkey, rfl⟩ | ⟨hkey, rfl⟩ | ⟨hkey, rfl⟩ | ⟨hkey, rfl⟩
    · exact absurd hkey (key_ne_z m)
    · obtain rfl : m = .quotaMb := Member.key_injective hkey
      exact .quotaMb
    · obtain rfl : m = .name := Member.key_injective hkey
      exact .name spellsText_c
    · obtain rfl : m = .auth := Member.key_injective hkey
      exact .auth .sasl (spellsText_quote "sasl")
  omits := by
    intro m h
    cases m <;> first | rfl | trivial

theorem listedBy_listItems : plainSettings.ListedBy listItems where
  carries := .cons (.name (spellsText_quote "c")) (.cons (.kind (spellsText_quote "couchbase"))
    (.cons .quotaMb .nil))
  omits := by
    intro m h
    cases m <;> first | rfl | trivial

theorem edits_laxMembers : ReflTransGen Edit laxMembers terseMembers := by
  have hreorder : Edit [("ramQuotaMB", .ofNat 100), ("name", .string (Utf8.encode "\\u0063")),
      ("authType", .ofText "sasl")] [("authType", .ofText "sasl"),
      ("name", .string (Utf8.encode "\\u0063")), ("ramQuotaMB", .ofNat 100)] :=
    .reorder (List.reverse_perm _).symm
  exact .head (.drop _ key_ne_z) (.head hreorder (.head (.dropAuth _)
    (.single (.respell spellsText_c (spellsText_quote "c")))))

theorem decodeSettings_spellings_plainSettings :
    decodeSettings laxBody = .ok plainSettings ∧ decodeSettings listBody = .ok plainSettings ∧
      decodeSettings terseBody = .ok plainSettings ∧
      ((∃ named, MapText named terseBody) ∨ ∃ items, Spells (.array items true) terseBody) := by
  have hvalid : plainSettings.Valid := ⟨by decide, by decide⟩
  obtain ⟨hmap, hlist, hedits, hall⟩ := decodeSettings_spellings
  have hlax := hmap _ _ _ hvalid describedBy_laxMembers mapText_laxBody (by decide +kernel)
  have hterse := hedits _ _ _ _ _ mapText_laxBody hlax edits_laxMembers mapText_terseBody
    (by decide +kernel)
  refine ⟨hlax, ?_, hterse, hall _ _ hterse⟩
  exact hlist _ _ _ hvalid listedBy_listItems spells_listBody (by decide +kernel)

end Api

end BucketAdmin
