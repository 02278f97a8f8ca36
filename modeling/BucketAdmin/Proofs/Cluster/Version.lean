import BucketAdmin.Cluster.Info
import BucketAdmin.Proofs.Except
import BucketAdmin.Proofs.Numeral

/-!
# What a release text says

The reader of versions takes a text apart as it goes. Here the text is first cut into its pieces,
and then each of the three numbers is looked for at its place among them (`parse_eq`). So a text
spells a version exactly when at each place stands a numeral of the number, or nothing where the
number is zero (`Spells`), and a text that spells none is refused for the first place where no
numeral is. A version as it is printed spells that version, whatever build suffix follows
(`spells_text`).

The lowest version of a cluster is that of some node and is not above that of any other, nodes that
tell no version left aside (`minVersion_eq_some_iff`).
-/

namespace BucketAdmin.Cluster

open Numeral (Denotes)

/-! ## Pieces of a release text -/

/-- What comes before the first hyphen, cut at its points. -/
def pieces (raw : String) : List (List Char) :=
  ((raw.toList.splitOn '-').headD []).splitOn '.'

/-- The text after the first separator is cut like the whole. -/
theorem splitOn_eq_cutAt (sep : Char) (cs : List Char) :
    cs.splitOn sep = (cutAt sep cs).1 :: (cutAt sep cs).2.elim [] (·.splitOn sep) := by
  induction cs with
  | nil => rfl
  | cons c cs ih =>
    rw [List.splitOn, List.splitOnP_cons_eq_if_modifyHead, ← List.splitOn]
    by_cases hc : c = sep
    · simp [cutAt, hc]
    · rw [ih]
      simp [cutAt, hc]

/-- What comes before a separator is a piece. -/
theorem splitOn_append_cons {sep : Char} {cs : List Char} (h : sep ∉ cs) (rest : List Char) :
    (cs ++ sep :: rest).splitOn sep = cs :: rest.splitOn sep := by
  have hne : ∀ c ∈ cs, (c == sep) = false := fun c hc =>
    beq_eq_false_iff_ne.mpr fun he => h (he ▸ hc)
  exact List.splitOnP_append_cons_of_forall_mem hne sep (beq_self_eq_true sep) rest

/-- A text without separators belongs to the first piece of what follows it. -/
theorem headD_splitOn_append {sep : Char} {cs : List Char} (h : sep ∉ cs) (rest : List Char) :
    ((cs ++ rest).splitOn sep).headD [] = cs ++ (rest.splitOn sep).headD [] := by
  rw [splitOn_eq_cutAt, splitOn_eq_cutAt sep rest]
  refine List.takeWhile_append_of_pos fun c hc => ?_
  exact decide_eq_true fun he => h (he ▸ hc)

namespace Version

/-! ## The three numbers -/

/-- Where a component stands among the pieces. -/
def position : Component → Nat
  | .major => 0
  | .minor => 1
  | .patch => 2

/-- The number of a component. -/
def number (v : Version) : Component → UInt32
  | .major => v.major
  | .minor => v.minor
  | .patch => v.patch

/-- What a piece is read as: the number that it denotes, or zero where there is no piece. -/
inductive Reads : Option (List Char) → UInt32 → Prop
  | omitted : Reads none 0
  | numeral {piece : List Char} {n : UInt32} (h : Denotes piece n.toNat) : Reads (some piece) n

/-- Each of the numbers stands at its place in the text. What comes after them does not matter. -/
def Spells (raw : String) (v : Version) : Prop :=
  ∀ which, Reads (pieces raw)[position which]? (v.number which)

/-- The number read from a piece. -/
def readPiece (raw : String) (which : Component) : Option (List Char) → Except VersionFault UInt32
  | none => .ok 0
  | some piece =>
    match Numeral.read? UInt32.size piece with
    | some n => .ok (.ofNat n)
    | none => .error ⟨which, raw⟩

variable {raw : String} {which : Component} {piece : Option (List Char)} {n : UInt32}
variable {v w : Version} {f : VersionFault}

theorem readPiece_eq_ok_iff : readPiece raw which piece = .ok n ↔ Reads piece n := by
  cases piece with
  | none =>
    constructor
    · rintro ⟨⟩
      exact .omitted
    · rintro ⟨⟩
      rfl
  | some piece =>
    constructor
    · intro h
      simp only [readPiece] at h
      split at h
      · next m hm =>
        obtain ⟨hdenotes, hlt⟩ := Numeral.read?_eq_some_iff.mp hm
        cases h
        exact .numeral (by rwa [UInt32.toNat_ofNat_of_lt' hlt])
      · cases h
    · rintro (_ | h)
      have hread := Numeral.read?_eq_some_iff.mpr ⟨h, n.toNat_lt_size⟩
      simp only [readPiece, hread, UInt32.ofNat_toNat]

theorem readPiece_eq_error_iff :
    readPiece raw which piece = .error f ↔ f = ⟨which, raw⟩ ∧ ∀ n, ¬Reads piece n := by
  have hreads (n : UInt32) : Reads piece n ↔ readPiece raw which piece = .ok n :=
    readPiece_eq_ok_iff.symm
  simp only [hreads]
  cases piece with
  | none => simp [readPiece]
  | some piece =>
    cases h : Numeral.read? UInt32.size piece <;> simp [readPiece, h, eq_comm]

/-- The pieces still to be read. -/
def ahead (rest : Option (List Char)) : List (List Char) := rest.elim [] (·.splitOn '.')

/-- Reading a component takes one piece off. -/
theorem component_eq (raw : String) (which : Component) (rest : Option (List Char)) :
    ∃ rest', ahead rest' = (ahead rest).tail ∧
      component raw which rest = (readPiece raw which (ahead rest)[0]?).map (·, rest') := by
  cases rest with
  | none => exact ⟨none, rfl, rfl⟩
  | some cs =>
    have hcut : ahead (some cs) = (cutAt '.' cs).1 :: ahead (cutAt '.' cs).2 :=
      splitOn_eq_cutAt '.' cs
    refine ⟨(cutAt '.' cs).2, by rw [hcut, List.tail_cons], ?_⟩
    rw [hcut, List.getElem?_cons_zero]
    simp only [component, readPiece]
    cases Numeral.read? UInt32.size (cutAt '.' cs).1 <;> rfl

/-- **A version is read piece by piece.** -/
theorem parse_eq (raw : String) :
    parse raw = (do
      let major ← readPiece raw .major (pieces raw)[0]?
      let minor ← readPiece raw .minor (pieces raw)[1]?
      let patch ← readPiece raw .patch (pieces raw)[2]?
      return ⟨major, minor, patch⟩) := by
  have hpieces : pieces raw = ahead (some (cutAt '-' raw.toList).1) := by
    rw [pieces, splitOn_eq_cutAt '-']
    rfl
  obtain ⟨afterMajor, hmajor, hmajorEq⟩ := component_eq raw .major (some (cutAt '-' raw.toList).1)
  obtain ⟨afterMinor, hminor, hminorEq⟩ := component_eq raw .minor afterMajor
  obtain ⟨afterPatch, -, hpatchEq⟩ := component_eq raw .patch afterMinor
  rw [hminor] at hpatchEq
  rw [hmajor] at hminorEq hpatchEq
  rw [← hpieces] at hmajorEq hminorEq hpatchEq
  simp only [List.getElem?_tail] at hminorEq hpatchEq
  simp only [parse, hmajorEq]
  cases readPiece raw .major (pieces raw)[0]? with
  | error f => rfl
  | ok major =>
    simp only [Except.map, ok_bind, hminorEq]
    cases readPiece raw .minor (pieces raw)[1]? with
    | error f => rfl
    | ok minor =>
      simp only [ok_bind, hpatchEq]
      cases readPiece raw .patch (pieces raw)[2]? <;> rfl

/-- **A text is read as the version that it spells,** and as no other. -/
theorem parse_eq_ok_iff : parse raw = .ok v ↔ Spells raw v := by
  rw [parse_eq]
  simp only [bind_eq_ok, readPiece_eq_ok_iff]
  constructor
  · rintro ⟨major, hmajor, minor, hminor, patch, hpatch, ⟨⟩⟩ which
    cases which with
    | major => exact hmajor
    | minor => exact hminor
    | patch => exact hpatch
  · intro h
    exact ⟨_, h .major, _, h .minor, _, h .patch, rfl⟩

/-- No number is read at the place of this component, and one is read at each place before it. -/
def FirstUnread (raw : String) (which : Component) : Prop :=
  (∀ n, ¬Reads (pieces raw)[position which]? n) ∧
    ∀ earlier, position earlier < position which →
      ∃ n, Reads (pieces raw)[position earlier]? n

/-- The first component that is no numeral is named in the refusal. -/
theorem parse_eq_error_iff :
    parse raw = .error f ↔ f.raw = raw ∧ FirstUnread raw f.component := by
  obtain ⟨component, text⟩ := f
  rw [parse_eq, FirstUnread]
  simp only [bind_eq_error, readPiece_eq_ok_iff, readPiece_eq_error_iff, VersionFault.mk.injEq]
  constructor
  · rintro (⟨⟨rfl, rfl⟩, hmajor⟩ | ⟨major, hmajor, ⟨⟨rfl, rfl⟩, hminor⟩ |
      ⟨minor, hminor, ⟨⟨rfl, rfl⟩, hpatch⟩ | ⟨patch, hpatch, ⟨⟩⟩⟩⟩)
    · exact ⟨rfl, hmajor, fun which hwhich => absurd hwhich (Nat.not_lt_zero _)⟩
    · refine ⟨rfl, hminor, fun which hwhich => ?_⟩
      cases which with
      | major => exact ⟨major, hmajor⟩
      | minor => exact absurd hwhich (Nat.lt_irrefl _)
      | patch => exact absurd hwhich (by decide)
    · refine ⟨rfl, hpatch, fun which hwhich => ?_⟩
      cases which with
      | major => exact ⟨major, hmajor⟩
      | minor => exact ⟨minor, hminor⟩
      | patch => exact absurd hwhich (Nat.lt_irrefl _)
  · rintro ⟨rfl, hnone, hbefore⟩
    cases component with
    | major => exact .inl ⟨⟨rfl, rfl⟩, hnone⟩
    | minor =>
      obtain ⟨major, hmajor⟩ := hbefore .major (by decide)
      exact .inr ⟨major, hmajor, .inl ⟨⟨rfl, rfl⟩, hnone⟩⟩
    | patch =>
      obtain ⟨major, hmajor⟩ := hbefore .major (by decide)
      obtain ⟨minor, hminor⟩ := hbefore .minor (by decide)
      exact .inr ⟨major, hmajor, .inr ⟨minor, hminor, .inl ⟨⟨rfl, rfl⟩, hnone⟩⟩⟩

example : parse "+4.05-2" = .ok ⟨4, 5, 0⟩ := by decide

theorem exists_parse_eq_error (h : ∀ v, ¬Spells raw v) :
    ∃ which, parse raw = .error ⟨which, raw⟩ := by
  cases hparse : parse raw with
  | ok v => exact absurd (parse_eq_ok_iff.mp hparse) (h v)
  | error f =>
    obtain ⟨rfl, -⟩ := parse_eq_error_iff.mp hparse
    exact ⟨f.component, rfl⟩

/-! ## Printed versions -/

/-- The digits of a number of a version. -/
def digits (n : UInt32) : List Char := Nat.toDigits 10 n.toNat

theorem reads_digits (n : UInt32) : Reads (some (digits n)) n :=
  .numeral (.unsigned (Numeral.decimal_toDigits n.toNat))

theorem not_mem_digits {sep : Char} (h : sep.isDigit = false) (n : UInt32) : sep ∉ digits n := by
  intro hmem
  have hdigit := (Numeral.decimal_toDigits n.toNat).isDigit sep hmem
  rw [h] at hdigit
  cases hdigit

theorem text_toList (v : Version) :
    v.text.toList = digits v.major ++ '.' :: (digits v.minor ++ '.' :: digits v.patch) := by
  have hdigits (n : UInt32) : (toString n).toList = digits n := by
    show (Nat.repr _).toList = _
    simp [Nat.repr, digits]
  have hpoint : (toString ".").toList = ['.'] := rfl
  simp [text, hdigits, hpoint]

/-- What may follow a version: nothing, or what a hyphen or a point sets apart. -/
def SetApart (suffix : String) : Prop :=
  suffix = "" ∨ ∃ rest, suffix = "-" ++ rest ∨ suffix = "." ++ rest

/-- Nothing of such a suffix is added to the piece before it. -/
theorem headD_pieces {suffix : String} (h : SetApart suffix) : (pieces suffix).headD [] = [] := by
  obtain rfl | ⟨rest, rfl | rfl⟩ := h
  · rfl
  · have hhyphen : ("-" ++ rest).toList = [] ++ '-' :: rest.toList := by simp
    rw [pieces, hhyphen, splitOn_append_cons (by simp)]
    rfl
  · have hpoint : ("." ++ rest).toList = ['.'] ++ rest.toList := by simp
    rw [pieces, hpoint, headD_splitOn_append (by decide)]
    exact congrArg (·.headD []) (splitOn_append_cons List.not_mem_nil _)

/-- The digits of a printed version are its first three pieces. -/
theorem pieces_text (v : Version) {suffix : String} (h : SetApart suffix) :
    ∃ after, pieces (v.text ++ suffix) =
      digits v.major :: digits v.minor :: digits v.patch :: after := by
  have hhyphen : '-' ∉ v.text.toList := by
    simp [text_toList, not_mem_digits]
  have hlast : ((digits v.patch ++ (suffix.toList.splitOn '-').headD []).splitOn '.').headD []
      = digits v.patch := by
    rw [headD_splitOn_append (not_mem_digits (by decide) _)]
    exact (congrArg _ (headD_pieces h)).trans (List.append_nil _)
  obtain ⟨last, after, hcons⟩ := List.exists_cons_of_ne_nil (List.splitOn_ne_nil '.'
    (digits v.patch ++ (suffix.toList.splitOn '-').headD []))
  rw [hcons, List.headD_cons] at hlast
  refine ⟨after, ?_⟩
  rw [pieces, String.toList_append, headD_splitOn_append hhyphen, text_toList]
  simp only [List.append_assoc, List.cons_append]
  rw [splitOn_append_cons (not_mem_digits (by decide) _),
    splitOn_append_cons (not_mem_digits (by decide) _), hcons, hlast]

/-- A printed version spells that version, whatever is set apart after it. -/
theorem spells_text (v : Version) {suffix : String} (h : SetApart suffix) :
    Spells (v.text ++ suffix) v := by
  obtain ⟨after, hpieces⟩ := pieces_text v h
  intro which
  rw [hpieces]
  cases which <;> exact reads_digits _

/-! ## The least of versions -/

/-- The lexicographic order of the three numbers. -/
instance : LE Version where
  le v w := v.major < w.major ∨ v.major = w.major ∧
    (v.minor < w.minor ∨ v.minor = w.minor ∧ v.patch ≤ w.patch)

theorem le_iff : v ≤ w ↔ v.major < w.major ∨ v.major = w.major ∧
    (v.minor < w.minor ∨ v.minor = w.minor ∧ v.patch ≤ w.patch) := Iff.rfl

theorem compare_eq_lt_iff : compare w v = .lt ↔ ¬v ≤ w := by
  have hlt (a b : UInt32) : compare a b = .lt ↔ a < b := compareOfLessAndEq_eq_lt
  have heq (a b : UInt32) : compare a b = .eq ↔ a = b := Std.LawfulEqOrd.compare_eq_iff_eq
  have hcompare : compare w v = (compare w.major v.major).then
    ((compare w.minor v.minor).then (compare w.patch v.patch)) := rfl
  simp only [hcompare, Ordering.then_eq_lt, hlt, heq, le_iff, UInt32.lt_iff_toNat_lt,
    UInt32.le_iff_toNat_le, ← UInt32.toNat_inj]
  omega

theorem le_refl (v : Version) : v ≤ v :=
  .inr ⟨rfl, .inr ⟨rfl, UInt32.le_refl _⟩⟩

theorem le_trans {u : Version} (huv : u ≤ v) (hvw : v ≤ w) : u ≤ w := by
  simp only [le_iff, UInt32.lt_iff_toNat_lt, UInt32.le_iff_toNat_le, ← UInt32.toNat_inj] at *
  omega

theorem le_total (v w : Version) : v ≤ w ∨ w ≤ v := by
  simp only [le_iff, UInt32.lt_iff_toNat_lt, UInt32.le_iff_toNat_le, ← UInt32.toNat_inj]
  omega

theorem le_antisymm (hvw : v ≤ w) (hwv : w ≤ v) : v = w := by
  obtain ⟨a, b, c⟩ := v
  obtain ⟨a', b', c'⟩ := w
  simp only [le_iff, UInt32.lt_iff_toNat_lt, UInt32.le_iff_toNat_le, ← UInt32.toNat_inj,
    mk.injEq] at *
  omega

theorem least_eq_or (v w : Version) : least v w = v ∨ least v w = w := by
  unfold least
  split
  · exact .inr rfl
  · exact .inl rfl

theorem least_le (v w : Version) : least v w ≤ v ∧ least v w ≤ w := by
  unfold least
  split
  · next h =>
    exact ⟨(le_total v w).resolve_left (compare_eq_lt_iff.mp h), le_refl w⟩
  · next h =>
    exact ⟨le_refl v, not_not.mp (mt compare_eq_lt_iff.mpr h)⟩

/-- What is kept is one of the versions, and none of them is below it. -/
theorem foldl_least (vs : List Version) (v : Version) :
    vs.foldl least v ∈ v :: vs ∧ ∀ w ∈ v :: vs, vs.foldl least v ≤ w := by
  induction vs generalizing v with
  | nil => simp [le_refl]
  | cons u vs ih =>
    obtain ⟨hmem, hle⟩ := ih (least v u)
    obtain ⟨hv, hu⟩ := least_le v u
    have hleast := hle _ List.mem_cons_self
    constructor
    · rw [List.foldl_cons]
      rcases List.mem_cons.mp hmem with hhead | htail
      · rw [hhead]
        rcases least_eq_or v u with heq | heq <;> simp [heq]
      · exact List.mem_cons_of_mem _ (List.mem_cons_of_mem _ htail)
    · intro w hw
      rw [List.foldl_cons]
      rcases List.mem_cons.mp hw with rfl | hw
      · exact le_trans hleast hv
      rcases List.mem_cons.mp hw with rfl | hw
      · exact le_trans hleast hu
      · exact hle w (List.mem_cons_of_mem _ hw)

end Version

namespace Info

open Version

variable {i j : Info} {v : Version}

/-- The versions that the nodes tell, in order. -/
def versions (i : Info) : List Version :=
  i.nodes.filterMap fun n => (parse n.version).toOption

theorem mem_versions : v ∈ i.versions ↔ ∃ n ∈ i.nodes, parse n.version = .ok v := by
  have htoOption (raw : String) : (parse raw).toOption = some v ↔ parse raw = .ok v := by
    cases parse raw <;> simp [Except.toOption]
  simp [versions, htoOption]

theorem minVersion_eq (i : Info) :
    i.minVersion = i.versions.head?.map (i.versions.tail.foldl least) := by
  unfold minVersion versions
  split
  · next h => simp [h]
  · next h => simp [h]

theorem minVersion_eq_some_iff : i.minVersion = some v ↔
    (∃ n ∈ i.nodes, parse n.version = .ok v) ∧
      ∀ n ∈ i.nodes, ∀ w, parse n.version = .ok w → v ≤ w := by
  have hforall : (∀ n ∈ i.nodes, ∀ w, parse n.version = .ok w → v ≤ w) ↔
      ∀ w ∈ i.versions, v ≤ w := by
    simp only [mem_versions]
    exact ⟨fun h w ⟨n, hn, hw⟩ => h n hn w hw, fun h n hn w hw => h w ⟨n, hn, hw⟩⟩
  rw [hforall, ← mem_versions, minVersion_eq]
  cases i.versions with
  | nil => simp
  | cons u us =>
    obtain ⟨hmem, hle⟩ := foldl_least us u
    simp only [List.head?_cons, List.tail_cons, Option.map_some, Option.some.injEq]
    constructor
    · rintro rfl
      exact ⟨hmem, hle⟩
    · rintro ⟨hv, hleast⟩
      exact le_antisymm (hle v hv) (hleast _ hmem)

theorem minVersion_eq_none_iff :
    i.minVersion = none ↔ ∀ n ∈ i.nodes, ∀ v, parse n.version ≠ .ok v := by
  have hempty : i.versions = [] ↔ ∀ n ∈ i.nodes, ∀ v, parse n.version ≠ .ok v := by
    rw [List.eq_nil_iff_forall_not_mem]
    simp only [mem_versions, not_exists, not_and]
    exact ⟨fun h n hn v => h v n hn, fun h v n hn => h n hn v⟩
  rw [← hempty, minVersion_eq]
  cases i.versions <;> simp

/-- The order of the nodes does not matter. -/
theorem minVersion_perm (h : i.nodes.Perm j.nodes) : i.minVersion = j.minVersion := by
  refine Option.ext fun v => ?_
  simp only [minVersion_eq_some_iff, h.mem_iff]

end Info

open Version in
/-- **Versions are what release texts spell, and a cluster is as old as its oldest node.** A text
that spells a version is read as that version, and any other is refused for the first place where
no number stands. What is printed is read back, with or without a suffix. The least version of a
cluster is told by one of its nodes and is not above what any other tells. -/
theorem versions_told :
    (∀ raw v, parse raw = .ok v ↔ Spells raw v) ∧
    (∀ raw, (∀ v, ¬Spells raw v) → ∃ which, parse raw = .error ⟨which, raw⟩) ∧
    (∀ raw f, parse raw = .error f ↔ f.raw = raw ∧ FirstUnread raw f.component) ∧
    (∀ (v : Version) suffix, SetApart suffix → parse (v.text ++ suffix) = .ok v) ∧
    (∀ (i : Info) v, i.minVersion = some v ↔
      (∃ n ∈ i.nodes, parse n.version = .ok v) ∧
        ∀ n ∈ i.nodes, ∀ w, parse n.version = .ok w → v ≤ w) ∧
    (∀ i : Info, i.minVersion = none ↔ ∀ n ∈ i.nodes, ∀ v, parse n.version ≠ .ok v) ∧
    (∀ i j : Info, i.nodes.Perm j.nodes → i.minVersion = j.minVersion) := by
  refine ⟨fun raw v => parse_eq_ok_iff, fun raw => exists_parse_eq_error,
    fun raw f => parse_eq_error_iff, fun v suffix h => ?_, fun i v => Info.minVersion_eq_some_iff,
    fun i => Info.minVersion_eq_none_iff, fun i j => Info.minVersion_perm⟩
  exact parse_eq_ok_iff.mpr (spells_text v h)

/-- A cluster on its way from one release to the next. One of its nodes tells no version. -/
def upgrading : Info where
  nodes := ["4.5.1-2844-enterprise", "unknown", "+4.05", "4.6.0.1"].map fun version =>
    ⟨"node", version, .healthy, []⟩
  storage := ⟨0, 0, 0, 0, 0, 0⟩

/-- The same cluster, seen from its other end. -/
def upgradingReversed : Info := { upgrading with nodes := upgrading.nodes.reverse }

theorem versions_told_upgrading :
    (∃ which, Version.parse "unknown" = .error ⟨which, "unknown"⟩) ∧
    Version.parse ((⟨4, 5, 1⟩ : Version).text ++ "-2844-enterprise") = .ok ⟨4, 5, 1⟩ ∧
    upgradingReversed.minVersion = some ⟨4, 5, 0⟩ := by
  obtain ⟨hspells, hrefused, -, hprinted, -, -, hperm⟩ := versions_told
  have hreversed := hperm upgradingReversed upgrading (List.reverse_perm _)
  refine ⟨hrefused _ fun v hv => ?_, hprinted _ _ (.inr ⟨"2844-enterprise", .inl rfl⟩), ?_⟩
  · have hparse : Version.parse "unknown" = .error ⟨.major, "unknown"⟩ := by decide
    rw [← hspells, hparse] at hv
    cases hv
  · rw [hreversed]
    decide

end BucketAdmin.Cluster
