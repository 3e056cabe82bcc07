import Tablature.Proofs.Json.Refusing

namespace Tablature.Json

variable {α β ρ σ : Type}

/-- A field of an object as it may be written: its key, the values that may stand there, and when it may be left
out. Both may depend on whether required fields are allowed to be lacking. -/
structure Slot where
  key : String
  admits : Prop → Json → Prop
  omittable : Prop → Prop

/-- The fields of an object fill its slots: in any order, none twice, without those that may be left out, and with
literals under keys that have no slot. -/
structure Arranges (lacking : Prop) (slots : List Slot) (fields : List (String × Json)) : Prop where
  admitted : ∀ slot ∈ slots, ∀ value, (slot.key, value) ∈ fields → slot.admits lacking value
  once : ∀ slot ∈ slots, (fields.map Prod.fst).count slot.key ≤ 1
  others : ∀ field ∈ fields, field.1 ∉ slots.map Slot.key → IsLiteral field.2
  complete : ∀ slot ∈ slots, slot.key ∉ fields.map Prod.fst → slot.omittable lacking

/-- The fields that do not stand under this key. -/
def without (key : String) (fields : List (String × Json)) : List (String × Json) :=
  fields.filter fun field => field.1 ≠ key

section Without

variable {key name : String} {value : Json} {fields : List (String × Json)}

theorem without_own : without key ((key, value) :: fields) = without key fields :=
  List.filter_cons_of_neg (by simp)

theorem without_cons (other : name ≠ key) :
    without key ((name, value) :: fields) = (name, value) :: without key fields :=
  List.filter_cons_of_pos (decide_eq_true other)

theorem without_absent (absent : key ∉ fields.map Prod.fst) : without key fields = fields := by
  refine List.filter_eq_self.mpr fun field member => decide_eq_true fun same => absent ?_
  rw [← same]
  exact List.mem_map_of_mem member

theorem mem_without (other : name ≠ key) : (name, value) ∈ without key fields ↔ (name, value) ∈ fields := by
  rw [without, List.mem_filter, decide_eq_true_eq]
  exact and_iff_left other

theorem key_mem_without (other : name ≠ key) :
    name ∈ (without key fields).map Prod.fst ↔ name ∈ fields.map Prod.fst := by
  simp only [List.mem_map, Prod.exists, exists_and_right, exists_eq_right, mem_without other]

theorem count_without (other : name ≠ key) :
    ((without key fields).map Prod.fst).count name = (fields.map Prod.fst).count name := by
  have pushed : (without key fields).map Prod.fst = (fields.map Prod.fst).filter fun name => name ≠ key := by
    rw [List.filter_map]
    rfl
  rw [pushed]
  exact List.count_filter (decide_eq_true other)

/-- A key that comes first and is allowed once does not come again. -/
theorem absent_of_once (once : (((key, value) :: fields).map Prod.fst).count key ≤ 1) :
    key ∉ fields.map Prod.fst := by
  rw [List.map_cons, List.count_cons_self] at once
  exact List.count_eq_zero.mp (by omega)

end Without

/-- What becomes of the fields of one slot is apart from what becomes of the others. -/
theorem arranges_cons {lacking : Prop} {slot : Slot} {slots : List Slot} {fields : List (String × Json)}
    (own : slot.key ∉ slots.map Slot.key) :
    Arranges lacking (slot :: slots) fields ↔
      Arranges lacking slots (without slot.key fields) ∧
        (∀ value, (slot.key, value) ∈ fields → slot.admits lacking value) ∧
        (fields.map Prod.fst).count slot.key ≤ 1 ∧ (slot.key ∉ fields.map Prod.fst → slot.omittable lacking) := by
  have apart {other : Slot} (member : other ∈ slots) : other.key ≠ slot.key := fun same =>
    own (List.mem_map.mpr ⟨other, member, same⟩)
  constructor
  · intro arranged
    refine ⟨⟨fun other member value inside => ?_, fun other member => ?_, fun field member out => ?_,
      fun other member out => ?_⟩, arranged.admitted slot List.mem_cons_self, arranged.once slot List.mem_cons_self,
      arranged.complete slot List.mem_cons_self⟩
    · exact arranged.admitted other (List.mem_cons_of_mem _ member) value ((mem_without (apart member)).mp inside)
    · rw [count_without (apart member)]
      exact arranged.once other (List.mem_cons_of_mem _ member)
    · obtain ⟨inFields, different⟩ := List.mem_filter.mp member
      refine arranged.others field inFields fun known => ?_
      rcases List.mem_cons.mp known with same | known
      · exact of_decide_eq_true different same
      · exact out known
    · exact arranged.complete other (List.mem_cons_of_mem _ member) (mt (key_mem_without (apart member)).mpr out)
  · rintro ⟨arranged, admitted, once, complete⟩
    refine ⟨fun other member value inside => ?_, fun other member => ?_, fun field member out => ?_,
      fun other member out => ?_⟩
    · rcases List.mem_cons.mp member with rfl | member
      · exact admitted value inside
      · exact arranged.admitted other member value ((mem_without (apart member)).mpr inside)
    · rcases List.mem_cons.mp member with rfl | member
      · exact once
      · rw [← count_without (apart member)]
        exact arranged.once other member
    · obtain ⟨different, out⟩ := not_or.mp (mt List.mem_cons.mpr out)
      exact arranged.others field ((mem_without different).mpr member) out
    · rcases List.mem_cons.mp member with rfl | member
      · exact complete out
      · exact arranged.complete other member (mt (key_mem_without (apart member)).mp out)

/-- The fields that are written in the order of the slots, all of them. -/
theorem arranges_all {lacking : Prop} {slots : List Slot} {fields : List (String × Json)}
    (distinct : (slots.map Slot.key).Nodup)
    (each : List.Forall₂ (fun slot field => field.1 = slot.key ∧ slot.admits lacking field.2) slots fields) :
    Arranges lacking slots fields := by
  induction each with
  | nil => exact ⟨nofun, nofun, nofun, nofun⟩
  | @cons slot field slots fields first each ih =>
    obtain ⟨key, value⟩ := field
    obtain ⟨rfl, admitted⟩ := first
    rw [List.map_cons, List.nodup_cons] at distinct
    obtain ⟨own, distinct⟩ := distinct
    have keys : fields.map Prod.fst = slots.map Slot.key := by
      rw [← List.forall₂_eq_eq_eq, List.forall₂_map_left_iff, List.forall₂_map_right_iff]
      exact (each.imp fun _ _ both => both.1).flip
    have absent : slot.key ∉ fields.map Prod.fst := by
      rw [keys]
      exact own
    have none := List.count_eq_zero.mpr absent
    refine (arranges_cons own).mpr ⟨?_, fun other member => ?_, ?_, fun out => absurd List.mem_cons_self out⟩
    · rw [without_own, without_absent absent]
      exact ih distinct
    · rcases List.mem_cons.mp member with same | again
      · cases same
        exact admitted
      · exact absurd (List.mem_map_of_mem again) absent
    · rw [List.map_cons, List.count_cons_self]
      omega

section Schemas

variable {schema : Schema ρ} {key : String} {i : Nat} {field : Field ρ} {seen : List Nat}

theorem index?_name (named : schema.index? key = some i) (placed : schema.fields[i]? = some field) :
    field.name = key := by
  obtain ⟨bound, same, _⟩ := List.findIdx?_eq_some_iff_getElem.mp named
  rw [List.getElem?_eq_getElem bound] at placed
  cases placed
  exact beq_iff_eq.mp same

theorem missing?_none (missing : schema.missing? seen = none) (placed : schema.fields[i]? = some field)
    (required : field.required = true) : i ∈ seen := by
  have none := List.find?_eq_none.mp (Option.map_eq_none_iff.mp missing) (field, i)
    (List.mk_mem_zipIdx_iff_getElem?.mpr placed)
  simpa [required] using none

theorem missing?_some (missing : schema.missing? seen = some field) :
    ∃ i, schema.fields[i]? = some field ∧ field.required = true ∧ i ∉ seen := by
  obtain ⟨⟨other, i⟩, found, rfl⟩ := Option.map_eq_some_iff.mp missing
  have lacks := List.find?_some found
  refine ⟨i, List.mk_mem_zipIdx_iff_getElem?.mp (List.mem_of_find?_eq_some found), ?_⟩
  simpa using lacks

/-- Fields that are still to be taken, none of them at a place that is among `seen`. -/
structure Pending (lacking : Prop) (schema : Schema ρ) (slots : List Slot) (fields : List (String × Json))
    (seen : List Nat) : Prop where
  admitted : ∀ slot ∈ slots, ∀ value, (slot.key, value) ∈ fields → slot.admits lacking value
  once : ∀ slot ∈ slots, (fields.map Prod.fst).count slot.key ≤ 1
  others : ∀ field ∈ fields, field.1 ∉ slots.map Slot.key → IsLiteral field.2
  fresh : ∀ slot ∈ slots, ∀ n ∈ seen, schema.index? slot.key = some n → slot.key ∉ fields.map Prod.fst

namespace Pending

variable {lacking : Prop} {slots : List Slot} {slot : Slot} {value : Json} {first : String × Json}
  {fields : List (String × Json)} {required : Bool} {read : ρ}

theorem rest (pending : Pending lacking schema slots (first :: fields) seen) :
    Pending lacking schema slots fields seen where
  admitted slot inSlots value inFields := pending.admitted slot inSlots value (List.mem_cons_of_mem _ inFields)
  once slot inSlots := Nat.le_trans List.count_le_count_cons (pending.once slot inSlots)
  others := (List.forall_mem_cons.mp pending.others).2
  fresh slot inSlots n inSeen named again :=
    pending.fresh slot inSlots n inSeen named (List.mem_cons_of_mem _ again)

theorem next (pending : Pending lacking schema slots ((slot.key, value) :: fields) seen) (inSlots : slot ∈ slots)
    (placed : schema.fields[i]? = some ⟨slot.key, required, read⟩) :
    Pending lacking schema slots fields (i :: seen) := by
  have absent : slot.key ∉ fields.map Prod.fst := absent_of_once (pending.once slot inSlots)
  refine { pending.rest with fresh := fun other inSlots' n inSeen named again => ?_ }
  rcases List.mem_cons.mp inSeen with rfl | inSeen
  · rw [← show slot.key = other.key from index?_name named placed] at again
    exact absent again
  · exact pending.rest.fresh other inSlots' n inSeen named again

end Pending

end Schemas

section Serving

variable (lacking : Prop) (schema : Schema ρ) (sets : ρ → Json → σ → σ → Prop) (fails : ρ → Json → Prop)
  (pick : List Nat → σ)

/-- The field at `n` reads what its slot admits. `pick` gives the record in which the fields at some places are
set. -/
structure Served (n : Nat) (slot : Slot) (required : Bool) (read : ρ) : Prop where
  named : schema.index? slot.key = some n
  placed : schema.fields[n]? = some ⟨slot.key, required, read⟩
  value : ∀ json, slot.admits lacking json →
    (slot.admits False json ∧ ∀ seen, sets read json (pick seen) (pick (n :: seen))) ∨ (lacking ∧ fails read json)
  left : slot.omittable lacking → if required then lacking else slot.omittable False

/-- The fields from `n` on are those of the slots. -/
inductive Serves : Nat → List Slot → Prop
  | nil {n} (all : schema.fields.length = n) : Serves n []
  | cons {n slot slots required read} (served : Served lacking schema sets fails pick n slot required read)
      (rest : Serves (n + 1) slots) : Serves n (slot :: slots)

variable {lacking schema sets fails pick} {n i : Nat} {slots : List Slot} {slot : Slot}

namespace Serves

theorem length (serves : Serves lacking schema sets fails pick n slots) :
    n + slots.length = schema.fields.length := by
  induction serves with
  | nil all => exact all.symm
  | cons _ _ ih =>
    rw [List.length_cons]
    omega

theorem served (serves : Serves lacking schema sets fails pick n slots) (at' : slots[i]? = some slot) :
    ∃ required read, Served lacking schema sets fails pick (n + i) slot required read := by
  induction serves generalizing i with
  | nil => cases at'
  | cons served _ ih =>
    cases i with
    | zero =>
      cases at'
      exact ⟨_, _, served⟩
    | succ i =>
      obtain ⟨required, read, later⟩ := ih at'
      rw [Nat.add_assoc, Nat.add_comm 1] at later
      exact ⟨required, read, later⟩

variable (serves : Serves lacking schema sets fails pick 0 slots)

include serves

theorem of_mem (member : slot ∈ slots) :
    ∃ i required read, slots[i]? = some slot ∧ Served lacking schema sets fails pick i slot required read := by
  obtain ⟨i, at'⟩ := List.mem_iff_getElem?.mp member
  obtain ⟨required, read, served⟩ := serves.served at'
  rw [Nat.zero_add] at served
  exact ⟨i, required, read, at', served⟩

theorem of_placed {field : Field ρ} (placed : schema.fields[i]? = some field) :
    ∃ slot, slots[i]? = some slot ∧ Served lacking schema sets fails pick i slot field.required field.read := by
  have bound := (List.getElem?_eq_some_iff.mp placed).1
  rw [← serves.length, Nat.zero_add] at bound
  obtain ⟨required, read, served⟩ := serves.served (List.getElem?_eq_getElem bound)
  rw [Nat.zero_add] at served
  cases placed.symm.trans served.placed
  exact ⟨_, List.getElem?_eq_getElem bound, served⟩

theorem unknown {key : String} (other : key ∉ slots.map Slot.key) : schema.index? key = none := by
  cases named : schema.index? key with
  | none => rfl
  | some i =>
    obtain ⟨bound, _⟩ := List.findIdx?_eq_some_iff_getElem.mp named
    have placed := List.getElem?_eq_getElem bound
    obtain ⟨slot, at', served⟩ := serves.of_placed placed
    refine absurd (List.mem_map.mpr ⟨slot, List.mem_of_getElem? at', ?_⟩) other
    exact (index?_name served.named placed).symm.trans (index?_name named placed)

/-- A slot is found again by its key. -/
theorem unique {other : Slot} (member : slot ∈ slots) (member' : other ∈ slots) (same : slot.key = other.key) :
    slot = other := by
  obtain ⟨i, _, _, atI, served⟩ := serves.of_mem member
  obtain ⟨j, _, _, atJ, served'⟩ := serves.of_mem member'
  have named := served.named
  rw [same, served'.named] at named
  cases named
  exact Option.some.inj (atI.symm.trans atJ)

/-- Fields that are admitted are taken one after the other, unless one is refused. -/
theorem taken {fields : List (String × Json)} {seen : List Nat} (pending : Pending lacking schema slots fields seen) :
    (∃ all, Fills schema sets fields (pick seen) seen (pick all) all ∧
      (∀ slot ∈ slots, ∀ value, (slot.key, value) ∈ fields → slot.admits False value) ∧
      ∀ n, n ∈ all ↔ n ∈ seen ∨ ∃ key ∈ fields.map Prod.fst, schema.index? key = some n) ∨
    (lacking ∧ Breaks schema sets fails fields (pick seen) seen) := by
  induction fields generalizing seen with
  | nil => exact Or.inl ⟨seen, .nil, nofun, fun n => ⟨Or.inl, fun inSeen => inSeen.resolve_right nofun⟩⟩
  | cons field fields ih =>
    obtain ⟨key, value⟩ := field
    by_cases known : key ∈ slots.map Slot.key
    · obtain ⟨slot, inSlots, rfl⟩ := List.mem_map.mp known
      obtain ⟨n, required, read, at', served⟩ := serves.of_mem inSlots
      have unseen : n ∉ seen := fun inSeen => pending.fresh slot inSlots n inSeen served.named List.mem_cons_self
      have new : seen.contains n = false := by simpa using unseen
      rcases served.value value (pending.admitted slot inSlots value List.mem_cons_self) with
        ⟨strict, set⟩ | ⟨lack, refused⟩
      · rcases ih (pending.next inSlots served.placed) with ⟨all, fills, stricts, present⟩ | ⟨lack, breaks⟩
        · refine Or.inl ⟨all, .cons n served.named served.placed new (set seen) fills, ?_, fun m => ?_⟩
          · intro other inSlots' value' inFields
            rcases List.mem_cons.mp inFields with same | inFields
            · obtain ⟨sameKey, rfl⟩ := Prod.mk.inj same
              rw [serves.unique inSlots' inSlots sameKey]
              exact strict
            · exact stricts other inSlots' value' inFields
          · rw [present, List.mem_cons, List.map_cons, List.exists_mem_cons_iff, served.named, Option.some_inj,
              or_assoc, or_left_comm, eq_comm]
        · exact Or.inr ⟨lack, .later n served.named served.placed new (set seen) breaks⟩
      · exact Or.inr ⟨lack, .here n served.named served.placed new refused⟩
    · have unknown := serves.unknown known
      have literal := pending.others (key, value) List.mem_cons_self known
      rcases ih pending.rest with ⟨all, fills, stricts, present⟩ | ⟨lack, breaks⟩
      · refine Or.inl ⟨all, .skip unknown literal fills, ?_, fun m => ?_⟩
        · intro other inSlots value' inFields
          rcases List.mem_cons.mp inFields with same | inFields
          · obtain ⟨sameKey, _⟩ := Prod.mk.inj same
            exact absurd (List.mem_map.mpr ⟨other, inSlots, sameKey⟩) known
          · exact stricts other inSlots value' inFields
        · rw [present, List.map_cons, List.exists_mem_cons_iff, unknown]
          simp only [reduceCtorEq, false_or]
      · exact Or.inr ⟨lack, .skip unknown literal breaks⟩

/-- An object whose fields are arranged gives its record, unless a required field is lacking somewhere. -/
theorem object {target : σ}
    (final : ∀ all : List Nat, (∀ n slot, slots[n]? = some slot → n ∉ all → slot.omittable False) → pick all = target)
    {fields : List (String × Json)} (arranged : Arranges lacking slots fields) :
    (Arranges False slots fields ∧ ∃ all, Fills schema sets fields (pick []) [] target all ∧
      schema.missing? all = none) ∨
    (lacking ∧ Breaks schema sets fails fields (pick []) []) := by
  have pending : Pending lacking schema slots fields [] :=
    ⟨arranged.admitted, arranged.once, arranged.others, fun _ _ _ inNone => absurd inNone List.not_mem_nil⟩
  rcases serves.taken pending with ⟨all, fills, stricts, present⟩ | broken
  · have absent {i : Nat} {slot : Slot} {required : Bool} {read : ρ}
        (served : Served lacking schema sets fails pick i slot required read) (out : i ∉ all) :
        slot.key ∉ fields.map Prod.fst := fun inFields =>
      out ((present i).mpr (Or.inr ⟨slot.key, inFields, served.named⟩))
    cases missing : schema.missing? all with
    | some field =>
      obtain ⟨i, placed, required, out⟩ := missing?_some missing
      obtain ⟨slot, at', served⟩ := serves.of_placed placed
      have left := served.left (arranged.complete slot (List.mem_of_getElem? at') (absent served out))
      rw [required] at left
      exact Or.inr ⟨left, fills.breaks missing⟩
    | none =>
      have complete {i : Nat} {slot : Slot} {required : Bool} {read : ρ} (inSlots : slot ∈ slots)
          (served : Served lacking schema sets fails pick i slot required read) (out : i ∉ all) :
          slot.omittable False := by
        have left := served.left (arranged.complete slot inSlots (absent served out))
        split at left
        · next required => exact absurd (missing?_none missing served.placed required) out
        · exact left
      have same : pick all = target := final all fun i slot at' out => by
        obtain ⟨required, read, served⟩ := serves.served at'
        rw [Nat.zero_add] at served
        exact complete (List.mem_of_getElem? at') served out
      rw [same] at fills
      refine Or.inl ⟨⟨stricts, arranged.once, arranged.others, fun slot inSlots out => ?_⟩, all, fills, missing⟩
      obtain ⟨i, required, read, _, served⟩ := serves.of_mem inSlots
      refine complete inSlots served fun inAll => out ?_
      obtain ⟨key, inFields, named⟩ := ((present i).mp inAll).resolve_left nofun
      rw [show slot.key = key from index?_name named served.placed]
      exact inFields
  · exact Or.inr broken

end Serves

end Serving

section Outcomes

/-- The value is an object whose fields fill the slots. -/
def ObjectOf (lacking : Prop) (slots : List Slot) (value : Json) : Prop :=
  ∃ fields, value = .object fields ∧ Arranges lacking slots fields

/-- The value is a list, each item of which is admitted for one of these. -/
def ListOf (admits : β → Json → Prop) (items : List β) (value : Json) : Prop :=
  ∃ values, value = .list values ∧ List.Forall₂ admits items values

theorem listOf_map {admits : β → Json → Prop} {json : β → Json} (each : ∀ b, admits b (json b)) (items : List β) :
    ListOf admits items (.list (items.map json)) := by
  refine ⟨_, rfl, ?_⟩
  rw [List.forall₂_map_right_iff, List.forall₂_same]
  exact fun b _ => each b

/-- The value is read as `a` if it is written strictly, and only where fields may be lacking can it fail. -/
def TextOutcome (lacking strict : Prop) (value : Json) (read : List Char → Except Fault (α × List Char)) (a : α) :
    Prop :=
  (strict ∧ Loads value read a) ∨ (lacking ∧ Fails value read)

/-- The same for a value that is held as a datum first. -/
def DatumOutcome (lacking strict : Prop) (depth : Nat) (value : Json) (take : Datum → Except Mismatch α) (a : α) :
    Prop :=
  (strict ∧ Decodes depth value take a) ∨ (lacking ∧ Misfits depth value take)

variable {lacking strict : Prop} {depth : Nat} {value : Json} {a : α} {result : β → α} {items : List β}

theorem TextOutcome.list (admits : Prop → β → Json → Prop) {item : Nat → List Char → Except Fault (α × List Char)}
    (each : ∀ b ∈ items, ∀ value, admits lacking b value →
      TextOutcome lacking (admits False b value) value (item depth) (result b))
    (listed : ListOf (admits lacking) items value) :
    TextOutcome lacking (ListOf (admits False) items value) value (readListOf item (depth + 1))
      (items.map result) := by
  obtain ⟨values, rfl, listed⟩ := listed
  have gathered : (List.Forall₂ (admits False) items values ∧
      List.Forall₂ (fun value a => Loads value (item depth) a) values (items.map result)) ∨
        (lacking ∧ FailsAmong (item depth) values) := by
    induction listed with
    | nil => exact Or.inl ⟨.nil, .nil⟩
    | @cons b value items values admitted _ ih =>
      obtain ⟨first, others⟩ := List.forall_mem_cons.mp each
      rcases first value admitted with ⟨strict, loads⟩ | ⟨lack, fails⟩
      · exact (ih others).imp (fun ⟨stricts, all⟩ => ⟨.cons strict stricts, .cons loads all⟩)
          fun ⟨lack, among⟩ => ⟨lack, .later loads among⟩
      · exact Or.inr ⟨lack, .here fails⟩
  exact gathered.imp (fun ⟨stricts, all⟩ => ⟨⟨values, rfl, stricts⟩, .items all⟩)
    fun ⟨lack, among⟩ => ⟨lack, among.fails⟩

theorem DatumOutcome.list (admits : Prop → β → Json → Prop) {take : Datum → Except Mismatch α}
    (each : ∀ b ∈ items, ∀ value, admits lacking b value →
      DatumOutcome lacking (admits False b value) depth value take (result b))
    (listed : ListOf (admits lacking) items value) :
    DatumOutcome lacking (ListOf (admits False) items value) (depth + 1) value (Datum.listOf take)
      (items.map result) := by
  obtain ⟨values, rfl, listed⟩ := listed
  -- The whole list is held whatever is wrong with an item, so its data are gathered apart from what they give.
  have gathered : ∃ data, List.Forall₂ (fun value datum => Loads value (readDatum depth) datum) values data ∧
      ((List.Forall₂ (admits False) items values ∧ data.mapM take = .ok (items.map result)) ∨
        (lacking ∧ ∃ mismatch, data.mapM take = .error mismatch)) := by
    induction listed with
    | nil => exact ⟨[], .nil, Or.inl ⟨.nil, rfl⟩⟩
    | @cons b value items values admitted _ ih =>
      obtain ⟨first, others⟩ := List.forall_mem_cons.mp each
      obtain ⟨data, held, outcome⟩ := ih others
      rcases first value admitted with ⟨strict, datum, taken, loads⟩ | ⟨lack, datum, ⟨mismatch, refused⟩, loads⟩
      · refine ⟨datum :: data, .cons loads held, ?_⟩
        rw [List.mapM_cons, taken]
        rcases outcome with ⟨stricts, all⟩ | ⟨lack, mismatch, refused⟩
        · rw [all]
          exact Or.inl ⟨.cons strict stricts, rfl⟩
        · rw [refused]
          exact Or.inr ⟨lack, mismatch, rfl⟩
      · refine ⟨datum :: data, .cons loads held, Or.inr ⟨lack, mismatch, ?_⟩⟩
        rw [List.mapM_cons, refused]
        rfl
  obtain ⟨data, held, ⟨stricts, taken⟩ | ⟨lack, refused⟩⟩ := gathered
  · exact Or.inl ⟨⟨values, rfl, stricts⟩, .list data, taken, loads_data held⟩
  · exact Or.inr ⟨lack, .list data, refused, loads_data held⟩

variable {pick : List Nat → σ} {slots : List Slot} {target : σ}

theorem TextOutcome.object {schema : Schema (Setter σ)}
    (serves : Serves lacking schema (TextSets depth) (TextFails depth) pick 0 slots)
    (final : ∀ all : List Nat, (∀ n slot, slots[n]? = some slot → n ∉ all → slot.omittable False) → pick all = target)
    (object : ObjectOf lacking slots value) :
    TextOutcome lacking (ObjectOf False slots value) value (readRecord schema (pick []) (depth + 1)) target := by
  obtain ⟨fields, rfl, arranged⟩ := object
  rcases serves.object final arranged with ⟨strict, all, fills, complete⟩ | ⟨lack, breaks⟩
  · exact Or.inl ⟨⟨fields, rfl, strict⟩, Loads.object fills complete⟩
  · exact Or.inr ⟨lack, breaks.fails⟩

/-- Fields that are admitted are all held, even behind one that cannot be taken. -/
theorem Serves.readable {schema : Schema (Datum.Setter σ)}
    (serves : Serves lacking schema (DatumSets depth) (DatumFails depth) pick 0 slots)
    {fields : List (String × Json)} (arranged : Arranges lacking slots fields) :
    ∀ field ∈ fields, Readable depth field.2 := by
  rintro ⟨key, value⟩ member
  by_cases known : key ∈ slots.map Slot.key
  · obtain ⟨slot, inSlots, rfl⟩ := List.mem_map.mp known
    obtain ⟨n, required, read, _, served⟩ := serves.of_mem inSlots
    rcases served.value value (arranged.admitted slot inSlots value member) with ⟨_, sets⟩ | ⟨_, fails⟩
    · obtain ⟨datum, _, loads⟩ := sets []
      exact ⟨datum, loads⟩
    · obtain ⟨datum, _, loads⟩ := fails (pick [])
      exact ⟨datum, loads⟩
  · exact (arranged.others (key, value) member known).loads depth

theorem DatumOutcome.object {schema : Schema (Datum.Setter σ)}
    (serves : Serves lacking schema (DatumSets depth) (DatumFails depth) pick 0 slots)
    (final : ∀ all : List Nat, (∀ n slot, slots[n]? = some slot → n ∉ all → slot.omittable False) → pick all = target)
    (surplus : Surplus) (object : ObjectOf lacking slots value) :
    DatumOutcome lacking (ObjectOf False slots value) (depth + 1) value (Datum.record schema surplus (pick []))
      target := by
  obtain ⟨fields, rfl, arranged⟩ := object
  rcases serves.object final arranged with ⟨strict, all, fills, complete⟩ | ⟨lack, breaks⟩
  · exact Or.inl ⟨⟨fields, rfl, strict⟩, Decodes.object fills complete surplus⟩
  · exact Or.inr ⟨lack, breaks.misfits (serves.readable arranged) surplus⟩

end Outcomes

end Tablature.Json
