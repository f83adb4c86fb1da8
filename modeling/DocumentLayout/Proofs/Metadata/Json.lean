import DocumentLayout.Metadata.Json
import DocumentLayout.Proofs.Text.Names
import DocumentLayout.Proofs.Traversal
import Mathlib.Data.List.Nodup

/-!
# What metadata loses as JSON

The names of a JSON object are strings. A key that is no string is refused only when no name stands
for it, and keys of different sorts may have the same name. So metadata becomes JSON without a loss
exactly when in each of its mappings all keys have names and no two the same.
-/

namespace DocumentLayout

namespace Value

/-! ## The mappings in a value -/

@[elab_as_elim]
theorem induction_on {p : Value → Prop} (value : Value) (null : p .null) (bool : ∀ b, p (.bool b))
    (int : ∀ n, p (.int n)) (float : ∀ x, p (.float x)) (string : ∀ text, p (.string text))
    (sequence : ∀ items, (∀ item ∈ items, p item) → p (.sequence items))
    (mapping : ∀ entries, (∀ entry ∈ entries, p entry.1 ∧ p entry.2) → p (.mapping entries))
    (tagged : ∀ tag value, p value → p (.tagged tag value)) : p value := by
  induction hn : sizeOf value using Nat.strong_induction_on generalizing value with
  | h n ih =>
    subst hn
    cases value with
    | null => exact null
    | bool b => exact bool b
    | int n => exact int n
    | float x => exact float x
    | string text => exact string text
    | sequence items =>
      apply sequence
      intro item hitem
      have hsize := List.sizeOf_lt_of_mem hitem
      exact ih _ (by simp only [Value.sequence.sizeOf_spec]; omega) item rfl
    | mapping entries =>
      apply mapping
      rintro ⟨key, value⟩ hentry
      have hsize := List.sizeOf_lt_of_mem hentry
      simp only [Prod.mk.sizeOf_spec] at hsize
      constructor
      · exact ih _ (by simp only [Value.mapping.sizeOf_spec]; omega) key rfl
      · exact ih _ (by simp only [Value.mapping.sizeOf_spec]; omega) value rfl
    | tagged tag value =>
      apply tagged
      exact ih _ (by simp only [Value.tagged.sizeOf_spec]; omega) value rfl

/-- The entries of a mapping that stands in a value, at any depth. -/
inductive Holds : Value → List (Value × Value) → Prop
  | here (entries : List (Value × Value)) : Holds (.mapping entries) entries
  | item {items : List Value} {item : Value} {inner : List (Value × Value)} (hitem : item ∈ items)
    (h : Holds item inner) : Holds (.sequence items) inner
  | key {entries inner : List (Value × Value)} {entry : Value × Value} (hentry : entry ∈ entries)
    (h : Holds entry.1 inner) : Holds (.mapping entries) inner
  | value {entries inner : List (Value × Value)} {entry : Value × Value} (hentry : entry ∈ entries)
    (h : Holds entry.2 inner) : Holds (.mapping entries) inner
  | tagged {tag : Text} {value : Value} {inner : List (Value × Value)} (h : Holds value inner) :
    Holds (.tagged tag value) inner

/-- Each mapping that stands in a value satisfies a property. -/
def Everywhere (q : List (Value × Value) → Prop) (value : Value) : Prop :=
  ∀ entries, value.Holds entries → q entries

section

variable {q : List (Value × Value) → Prop}

theorem everywhere_sequence {items : List Value} :
    (sequence items).Everywhere q ↔ ∀ item ∈ items, item.Everywhere q := by
  constructor
  · intro h item hitem entries hentries
    exact h entries (.item hitem hentries)
  · intro h entries hentries
    cases hentries with
    | item hitem hinner => exact h _ hitem entries hinner

theorem everywhere_mapping {entries : List (Value × Value)} :
    (mapping entries).Everywhere q ↔
      q entries ∧ ∀ entry ∈ entries, entry.1.Everywhere q ∧ entry.2.Everywhere q := by
  constructor
  · intro h
    refine ⟨h entries (.here entries), fun entry hentry => ⟨?_, ?_⟩⟩
    · exact fun inner hinner => h inner (.key hentry hinner)
    · exact fun inner hinner => h inner (.value hentry hinner)
  · rintro ⟨hhere, hentries⟩ inner hinner
    cases hinner with
    | here => exact hhere
    | key hentry hinner => exact (hentries _ hentry).1 inner hinner
    | value hentry hinner => exact (hentries _ hentry).2 inner hinner

theorem everywhere_tagged {tag : Text} {value : Value} :
    (tagged tag value).Everywhere q ↔ value.Everywhere q := by
  constructor
  · exact fun h entries hentries => h entries (.tagged hentries)
  · intro h entries hentries
    cases hentries with
    | tagged hinner => exact h entries hinner

/-! ## Names -/

/-- Whether a name stands for a key. -/
def hasName : Value → Bool
  | .string _ | .bool _ | .int _ => true
  | .float x => x.isFinite
  | _ => false

theorem exists_jsonName_iff {key : Value} :
    (∃ name, key.jsonName = .ok name) ↔ key.hasName = true := by
  cases key with
  | float x => cases hx : x.isFinite <;> simp [jsonName, hasName, hx]
  | null | bool | int | string | sequence | mapping | tagged => simp [jsonName, hasName]

-- What has a name is no container.
theorem everywhere_of_hasName {key : Value} (h : key.hasName = true) : key.Everywhere q := by
  intro entries hentries
  cases hentries <;> simp [hasName] at h

end

/-- All keys of the entries have names. -/
def AllNamed (entries : List (Value × Value)) : Prop := ∀ entry ∈ entries, entry.1.hasName = true

/-- No two keys of the entries have the same name. -/
def DifferentNames (entries : List (Value × Value)) : Prop :=
  (entries.map fun entry => entry.1.jsonName).Nodup

/-- All keys of the entries are strings, and no two are equal. -/
def StringKeys (entries : List (Value × Value)) : Prop :=
  (∀ entry ∈ entries, ∃ text, entry.1 = .string text) ∧ hasDuplicateKey entries = false

theorem StringKeys.allNamed {entries : List (Value × Value)} (h : StringKeys entries) :
    AllNamed entries := by
  intro entry hentry
  obtain ⟨text, htext⟩ := h.1 entry hentry
  rw [htext]
  rfl

theorem StringKeys.differentNames {entries : List (Value × Value)} (h : StringKeys entries) :
    DifferentNames entries := by
  obtain ⟨hstrings, hduplicate⟩ := h
  induction entries with
  | nil => exact List.nodup_nil
  | cons entry entries ih =>
    obtain ⟨key, value⟩ := entry
    obtain ⟨⟨text, rfl⟩, hrest⟩ := List.forall_mem_cons.1 hstrings
    rw [hasDuplicateKey, Bool.or_eq_false_iff] at hduplicate
    refine List.nodup_cons.2 ⟨?_, ih hrest hduplicate.2⟩
    -- A later key with this name is the same string.
    intro hmem
    obtain ⟨other, hother, hname⟩ := List.mem_map.1 hmem
    obtain ⟨again, hagain⟩ := hrest other hother
    rw [hagain] at hname
    obtain rfl : again = text := Except.ok.inj hname
    have hfound : (find? (.string again) entries).isSome = true := by
      unfold find?
      rw [Option.isSome_map, List.find?_isSome]
      refine ⟨other, hother, ?_⟩
      show same (.string again) other.1 = true
      rw [hagain]
      exact beq_self_eq_true again
    rw [hduplicate.1] at hfound
    exact absurd hfound (by decide)

/-! ## The conversion -/

theorem itemsToJson_eq (items : List Value) : itemsToJson items = items.mapM toJson := by
  induction items with
  | nil => rfl
  | cons item items ih =>
    rw [itemsToJson, List.mapM_cons, ih]

/-- An entry of a mapping as a member of an object. -/
def entryToJson (entry : Value × Value) : Except JsonFault (Text × Json) := do
  let name ← entry.1.jsonName
  let member ← entry.2.toJson
  return (name, member)

theorem entriesToJson_eq (entries : List (Value × Value)) :
    entriesToJson entries = entries.mapM entryToJson := by
  induction entries with
  | nil => rfl
  | cons entry entries ih =>
    obtain ⟨key, value⟩ := entry
    rw [entriesToJson, List.mapM_cons, ih, entryToJson]
    simp only [bind_assoc, pure_bind]

theorem entryToJson_eq_ok {entry : Value × Value} {part : Text × Json} :
    entryToJson entry = .ok part ↔
      entry.1.jsonName = .ok part.1 ∧ entry.2.toJson = .ok part.2 := by
  unfold entryToJson
  cases hname : entry.1.jsonName with
  | error fault => simp [bind, Except.bind]
  | ok name =>
    cases hmember : entry.2.toJson with
    | error fault => simp [bind, Except.bind]
    | ok member => simp [bind, Except.bind, pure, Except.pure, Prod.ext_iff]

/-- A mapping becomes an object of the parts that its entries become, of which the last one of each
name is kept. -/
theorem toJson_mapping {entries : List (Value × Value)} {json : Json}
    (h : (mapping entries).toJson = .ok json) :
    ∃ parts, json = .object (Named.ofList parts) ∧
      List.Forall₂ (fun entry part => entryToJson entry = .ok part) entries parts := by
  rw [toJson, entriesToJson_eq] at h
  obtain ⟨parts, hparts, rfl⟩ := exists_of_map_eq_ok h
  exact ⟨parts, rfl, forall₂_of_mapM_eq_ok hparts⟩

/-- Of the entries whose keys have the same name an object keeps the last one. -/
theorem mem_iff_of_toJson {entries : List (Value × Value)} {members : List (Text × Json)}
    (h : (mapping entries).toJson = .ok (.object members)) :
    ∃ parts, List.Forall₂ (fun entry part => entryToJson entry = .ok part) entries parts ∧
      ∀ member, member ∈ members ↔ parts.reverse.lookup member.1 = some member.2 := by
  obtain ⟨parts, hmembers, hparts⟩ := toJson_mapping h
  obtain rfl := Json.object.inj hmembers
  exact ⟨parts, hparts, fun _ => Named.mem_ofList_iff⟩

theorem toJson_sequence {items : List Value} {json : Json}
    (h : (sequence items).toJson = .ok json) :
    ∃ parts, json = .array parts ∧
      List.Forall₂ (fun item part => item.toJson = .ok part) items parts := by
  rw [toJson, itemsToJson_eq] at h
  obtain ⟨parts, hparts, rfl⟩ := exists_of_map_eq_ok h
  exact ⟨parts, rfl, forall₂_of_mapM_eq_ok hparts⟩

/-- A value becomes JSON exactly when all keys in it have names. -/
theorem exists_toJson_iff (value : Value) :
    (∃ json, value.toJson = .ok json) ↔ value.Everywhere AllNamed := by
  induction value using induction_on with
  | null | bool | int | float | string =>
    rw [toJson]
    constructor
    · rintro - entries ⟨⟩
    · exact fun _ => ⟨_, rfl⟩
  | sequence items ih =>
    rw [toJson, itemsToJson_eq, exists_map_eq_ok_iff, exists_mapM_eq_ok_iff, everywhere_sequence]
    exact forall₂_congr ih
  | mapping entries ih =>
    rw [toJson, entriesToJson_eq, exists_map_eq_ok_iff, exists_mapM_eq_ok_iff, everywhere_mapping]
    constructor
    · intro h
      have hnamed : AllNamed entries := by
        intro entry hentry
        obtain ⟨part, hpart⟩ := h entry hentry
        exact exists_jsonName_iff.1 ⟨_, (entryToJson_eq_ok.1 hpart).1⟩
      refine ⟨hnamed, fun entry hentry => ?_⟩
      obtain ⟨part, hpart⟩ := h entry hentry
      exact ⟨everywhere_of_hasName (hnamed entry hentry),
        (ih entry hentry).2.1 ⟨_, (entryToJson_eq_ok.1 hpart).2⟩⟩
    · rintro ⟨hnamed, hentries⟩ entry hentry
      obtain ⟨name, hname⟩ := exists_jsonName_iff.2 (hnamed entry hentry)
      obtain ⟨json, hjson⟩ := (ih entry hentry).2.2 (hentries entry hentry).2
      exact ⟨(name, json), entryToJson_eq_ok.2 ⟨hname, hjson⟩⟩
  | tagged tag value ih =>
    rw [toJson, exists_map_eq_ok_iff, everywhere_tagged]
    exact ih

/-! ## Nothing lost -/

mutual

/-- JSON that a value stands in with all its parts: a sequence as an array of as many items, and a
mapping as an object of as many members as it has entries, in the order of their names. -/
inductive Mirrors : Value → Json → Prop
  | null : Mirrors .null .null
  | bool (b : Bool) : Mirrors (.bool b) (.bool b)
  | int (n : Int) : Mirrors (.int n) (.int n)
  | float (x : Binary64) : Mirrors (.float x) (if x.isFinite then .float x else .null)
  | string (text : Text) : Mirrors (.string text) (.string text)
  | sequence {items : List Value} {parts : List Json} (h : List.Forall₂ Mirrors items parts) :
    Mirrors (.sequence items) (.array parts)
  | mapping {entries : List (Value × Value)} {parts members : List (Text × Json)}
    (h : List.Forall₂ MirrorsEntry entries parts) (hperm : parts.Perm members) :
    Mirrors (.mapping entries) (.object members)
  | tagged (tag : Text) {value : Value} {json : Json} (h : Mirrors value json) :
    Mirrors (.tagged tag value) (.object [('!' :: tag, json)])

/-- A member that an entry stands in, under the name of its key. -/
inductive MirrorsEntry : Value × Value → Text × Json → Prop
  | intro {key value : Value} {name : Text} {json : Json} (hname : key.jsonName = .ok name)
    (h : Mirrors value json) : MirrorsEntry (key, value) (name, json)

end

theorem mirrorsEntry_iff {entry : Value × Value} {part : Text × Json} :
    MirrorsEntry entry part ↔ entry.1.jsonName = .ok part.1 ∧ Mirrors entry.2 part.2 := by
  constructor
  · rintro ⟨hname, h⟩
    exact ⟨hname, h⟩
  · exact fun h => .intro h.1 h.2

theorem map_jsonName {r : Value × Value → Text × Json → Prop}
    (hr : ∀ entry part, r entry part → entry.1.jsonName = .ok part.1)
    {entries : List (Value × Value)} {parts : List (Text × Json)}
    (h : List.Forall₂ r entries parts) :
    (entries.map fun entry => entry.1.jsonName) = (parts.map (·.1)).map .ok := by
  induction h with
  | nil => rfl
  | cons hfirst _ ih =>
    simp only [List.map_cons]
    rw [hr _ _ hfirst, ih]

theorem differentNames_iff {entries : List (Value × Value)} {names : List Text}
    (h : (entries.map fun entry => entry.1.jsonName) = names.map .ok) :
    DifferentNames entries ↔ names.Nodup := by
  unfold DifferentNames
  rw [h]
  exact List.nodup_map_iff fun _ _ hab => Except.ok.inj hab

/-- The JSON that a value becomes mirrors it exactly when all names in it are different. -/
theorem mirrors_iff {value : Value} {json : Json} (h : value.toJson = .ok json) :
    Mirrors value json ↔ value.Everywhere DifferentNames := by
  induction value using induction_on generalizing json with
  | null | bool | int | float | string =>
    rw [toJson] at h
    obtain rfl := Except.ok.inj h
    constructor
    · rintro - entries ⟨⟩
    · exact fun _ => by constructor
  | sequence items ih =>
    obtain ⟨parts, rfl, hparts⟩ := toJson_sequence h
    have hitems := forall₂_iff_forall hparts fun item hitem part hpart => ih item hitem hpart
    rw [everywhere_sequence, ← hitems]
    constructor
    · rintro ⟨⟩
      assumption
    · exact .sequence
  | mapping entries ih =>
    obtain ⟨parts, rfl, hparts⟩ := toJson_mapping h
    have hnames := map_jsonName (fun _ _ hpart => (entryToJson_eq_ok.1 hpart).1) hparts
    have hentries : List.Forall₂ MirrorsEntry entries parts ↔
        ∀ entry ∈ entries, entry.1.Everywhere DifferentNames ∧
          entry.2.Everywhere DifferentNames := by
      apply forall₂_iff_forall hparts
      intro entry hentry part hpart
      obtain ⟨hname, hjson⟩ := entryToJson_eq_ok.1 hpart
      rw [mirrorsEntry_iff, (ih entry hentry).2 hjson]
      have hkey := exists_jsonName_iff.1 ⟨_, hname⟩
      exact ⟨fun hmirrors => ⟨everywhere_of_hasName hkey, hmirrors.2⟩,
        fun heverywhere => ⟨hname, heverywhere.2⟩⟩
    rw [everywhere_mapping, differentNames_iff hnames, ← hentries]
    constructor
    · rintro (_ | _ | _ | _ | _ | _ | @⟨_, others, _, hothers, hperm⟩)
      -- No two members have the same name, so the names tell which member is whose.
      have hdifferent : (others.map (·.1)).Nodup :=
        (hperm.map _).nodup_iff.2 (Named.isSorted_ofList parts).nodup
      have hothersNames := map_jsonName (fun _ _ hpart => (mirrorsEntry_iff.1 hpart).1) hothers
      have hsame : others.map (·.1) = parts.map (·.1) :=
        List.map_injective_iff.2 (fun _ _ => Except.ok.inj) (hothersNames.symm.trans hnames)
      have hnodup : (parts.map (·.1)).Nodup := hsame ▸ hdifferent
      have hall := (Named.perm_ofList hnodup).symm.trans hperm.symm
      obtain rfl := Named.eq_of_perm hall hsame.symm hnodup
      exact ⟨hnodup, hothers⟩
    · rintro ⟨hnodup, hmirrors⟩
      exact .mapping hmirrors (Named.perm_ofList hnodup).symm
  | tagged tag value ih =>
    rw [toJson] at h
    obtain ⟨inner, hinner, rfl⟩ := exists_of_map_eq_ok h
    rw [everywhere_tagged, ← ih hinner]
    constructor
    · rintro ⟨⟩
      assumption
    · exact .tagged tag

theorem Mirrors.length_eq {entries : List (Value × Value)} {members : List (Text × Json)}
    (h : Mirrors (.mapping entries) (.object members)) : members.length = entries.length := by
  cases h with
  | mapping hparts hperm => rw [← hperm.length_eq, hparts.length_eq]

end Value

namespace Metadata

theorem toJson_eq_ok {metadata : Metadata} {json : Json} :
    metadata.toJson = .ok json ↔ (Value.mapping metadata).toJson = .ok json := by
  unfold toJson
  cases (Value.mapping metadata).toJson <;> simp [Except.mapError]

/-- What cannot become JSON is reported as such. -/
theorem exists_toJson_eq_error_iff {metadata : Metadata} :
    (∃ fault, metadata.toJson = .error (.metadataJson fault)) ↔
      ¬ ∃ json, (Value.mapping metadata).toJson = .ok json := by
  unfold toJson
  cases (Value.mapping metadata).toJson <;> simp [Except.mapError]

/-- Metadata are refused exactly when a mapping in them, at any depth, has a key without a name, and
they become JSON without a loss exactly when all keys have names and no two keys of a mapping the
same. Neither can go wrong while all keys are strings. -/
theorem toJson_mirrors (metadata : Metadata) :
    ((∃ fault, metadata.toJson = .error (.metadataJson fault)) ↔
      ∃ entries, (Value.mapping metadata).Holds entries ∧
        ∃ entry ∈ entries, entry.1.hasName = false) ∧
    ((∃ json, metadata.toJson = .ok json ∧ Value.Mirrors (.mapping metadata) json) ↔
      (Value.mapping metadata).Everywhere fun entries =>
        Value.AllNamed entries ∧ Value.DifferentNames entries) ∧
    ((Value.mapping metadata).Everywhere Value.StringKeys →
      ∃ json, metadata.toJson = .ok json ∧ Value.Mirrors (.mapping metadata) json) := by
  have hmirrors : (∃ json, metadata.toJson = .ok json ∧ Value.Mirrors (.mapping metadata) json) ↔
      (Value.mapping metadata).Everywhere fun entries =>
        Value.AllNamed entries ∧ Value.DifferentNames entries := by
    constructor
    · rintro ⟨json, hjson, hmirrors⟩ entries hentries
      rw [toJson_eq_ok] at hjson
      exact ⟨(Value.exists_toJson_iff _).1 ⟨json, hjson⟩ entries hentries,
        (Value.mirrors_iff hjson).1 hmirrors entries hentries⟩
    · intro h
      obtain ⟨json, hjson⟩ := (Value.exists_toJson_iff (.mapping metadata)).2
        fun entries hentries => (h entries hentries).1
      exact ⟨json, toJson_eq_ok.2 hjson,
        (Value.mirrors_iff hjson).2 fun entries hentries => (h entries hentries).2⟩
  refine ⟨?_, hmirrors, ?_⟩
  · rw [exists_toJson_eq_error_iff, Value.exists_toJson_iff]
    simp only [Value.Everywhere, Value.AllNamed, not_forall, Bool.not_eq_true, exists_prop]
  · intro h
    apply hmirrors.2
    intro entries hentries
    have hstrings := h entries hentries
    exact ⟨hstrings.allNamed, hstrings.differentNames⟩

/-- A mapping inside a sequence, and keys that stand in another order than their names. -/
theorem toJson_mirrors_nested :
    let metadata : Metadata :=
      [(.string ['b'], .sequence [.mapping [(.string ['c'], .int 1)]]), (.string ['a'], .bool true)]
    (Value.mapping metadata).Everywhere Value.StringKeys ∧
      ∃ json, metadata.toJson = .ok json ∧ Value.Mirrors (.mapping metadata) json := by
  intro metadata
  have hinner : (Value.mapping [(.string ['c'], .int 1)]).Everywhere Value.StringKeys := by
    refine Value.everywhere_mapping.2 ⟨⟨by simp, rfl⟩, List.forall_mem_singleton.2 ?_⟩
    exact ⟨Value.everywhere_of_hasName rfl, Value.everywhere_of_hasName rfl⟩
  have hfirst : (Value.sequence [.mapping [(.string ['c'], .int 1)]]).Everywhere
      Value.StringKeys :=
    Value.everywhere_sequence.2 (List.forall_mem_singleton.2 hinner)
  have hstrings : (Value.mapping metadata).Everywhere Value.StringKeys := by
    refine Value.everywhere_mapping.2 ⟨⟨by simp [metadata], rfl⟩, ?_⟩
    intro entry hentry
    rcases List.mem_pair.1 hentry with rfl | rfl
    · exact ⟨Value.everywhere_of_hasName rfl, hfirst⟩
    · exact ⟨Value.everywhere_of_hasName rfl, Value.everywhere_of_hasName rfl⟩
  exact ⟨hstrings, (toJson_mirrors metadata).2.2 hstrings⟩

/-- A number and the string that spells it are different keys with one name, so that two entries
become one member. -/
theorem toJson_int_key :
    let metadata : Metadata := [(.int 1, .string ['a']), (.string ['1'], .string ['b'])]
    Value.hasDuplicateKey metadata = false ∧
      metadata.toJson = .ok (.object [(['1'], .string ['b'])]) ∧
      ¬ Value.Mirrors (.mapping metadata) (.object [(['1'], .string ['b'])]) := by
  refine ⟨by decide, rfl, fun h => ?_⟩
  have hlength := h.length_eq
  simp at hlength

end Metadata

end DocumentLayout
