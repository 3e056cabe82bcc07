import Tablature.Proofs.Stored
import Tablature.Proofs.Wording

namespace Tablature

theorem PalmMute.ofSlot?_eq_some_iff {text : String} {mute : PalmMute} :
    ofSlot? text = some mute ↔ mute.slot = text := by
  constructor
  · intro found
    have same := List.find?_some found
    exact beq_iff_eq.mp same
  · rintro rfl
    exact ofSlot?_slot mute

theorem PalmMute.exists_ofSlot?_iff {text : String} :
    (∃ mute, ofSlot? text = some mute) ↔ text ∈ ["", "-", "start", "end"] := by
  simp only [ofSlot?_eq_some_iff]
  constructor
  · rintro ⟨mute, rfl⟩
    cases mute <;> decide
  · intro member
    obtain ⟨mute, _, same⟩ := List.mem_map.mp (show text ∈ all.map slot from member)
    exact ⟨mute, same⟩

namespace ColumnError

/-- How the message of an error begins. -/
def initial : ColumnError → Char
  | slotCount _ => 'a'
  | lengthFlag _ => 'i'
  | palmMute _ => 'u'

theorem message_head (e : ColumnError) : e.message.toList.head? = some e.initial := by
  have opens {sentence : String} {letter : Char} (first : sentence.toList.head? = some letter) (rest : String) :
      (sentence ++ rest).toList.head? = some letter := by
    rw [String.toList_append, List.head?_append, first, Option.some_or]
  have count : "a column has 10 positional slots (11 with the length-modified flag), found ".toList.head? = some 'a' :=
    by decide
  have flag : "invalid length-modified flag ".toList.head? = some 'i' := by decide
  have mute : "unknown palm mute flag ".toList.head? = some 'u' := by decide
  cases e with
  | slotCount found => exact opens count (toString found)
  | lengthFlag found => exact opens flag (quoted found)
  | palmMute found => exact opens mute (quoted found)

/-- A message names what it is about: different errors have different messages. -/
theorem message_inj {e f : ColumnError} (same : e.message = f.message) : e = f := by
  have letter : e.initial = f.initial := by
    have heads := congrArg (fun sentence : String => sentence.toList.head?) same
    simp only [message_head, Option.some.injEq] at heads
    exact heads
  cases e with
  | slotCount found =>
    cases f with
    | slotCount other => rw [Nat.repr_inj.mp ((String.append_right_inj _).mp same)]
    | lengthFlag | palmMute => cases letter
  | lengthFlag found =>
    cases f with
    | lengthFlag other => rw [quoted_inj ((String.append_right_inj _).mp same)]
    | slotCount | palmMute => cases letter
  | palmMute found =>
    cases f with
    | palmMute other => rw [quoted_inj ((String.append_right_inj _).mp same)]
    | slotCount | lengthFlag => cases letter

end ColumnError

namespace Column

variable {slots : List String}

/-- As many slots as a column has: ten, and perhaps the flag of a modified length. -/
def HasCount (slots : List String) : Prop :=
  slots.length = 10 ∨ slots.length = 11

/-- The flag after the first ten slots, if there is one, is a known word. -/
def HasFlag (slots : List String) : Prop :=
  ∀ flag, slots[10]? = some flag → flag ∈ ["", "false", "true"]

def HasMute (slots : List String) : Prop :=
  ∀ mute, slots[0]? = some mute → mute ∈ ["", "-", "start", "end"]

/-- What is wrong with slots: the first thing of those that may be. -/
inductive Flaw (slots : List String) : ColumnError → Prop
  | count (other : ¬HasCount slots) : Flaw slots (.slotCount slots.length)
  | flag {flag : String} (count : HasCount slots) (here : slots[10]? = some flag)
      (unknown : flag ∉ ["", "false", "true"]) : Flaw slots (.lengthFlag flag)
  | mute {mute : String} (count : HasCount slots) (known : HasFlag slots) (here : slots[0]? = some mute)
      (unknown : mute ∉ ["", "-", "start", "end"]) : Flaw slots (.palmMute mute)

theorem HasCount.slots_cases (count : HasCount slots) : ∃ mute a b c d e f effects noteLength id flags,
    slots = mute :: a :: b :: c :: d :: e :: f :: effects :: noteLength :: id :: flags ∧ flags.length ≤ 1 := by
  match slots, count with
  | [mute, a, b, c, d, e, f, effects, noteLength, id], _ =>
    exact ⟨mute, a, b, c, d, e, f, effects, noteLength, id, [], rfl, by decide⟩
  | [mute, a, b, c, d, e, f, effects, noteLength, id, flag], _ =>
    exact ⟨mute, a, b, c, d, e, f, effects, noteLength, id, [flag], rfl, Nat.le_refl 1⟩

theorem ofSlots_count (other : ¬HasCount slots) : ofSlots slots = .error (.slotCount slots.length) := by
  unfold ofSlots
  split
  · next flags =>
    have many : 1 < flags.length := by
      simp only [HasCount, List.length_cons] at other
      omega
    rw [if_pos many]
    congr 2
    simp only [List.length_cons]
    omega
  · rfl

/-- The flag of a modified length is read if it is a known word or missing. -/
theorem lengthFlag_cases (flags : List String) :
    lengthFlag flags = .ok (flags[0]? = some "true") ∧ (∀ flag, flags[0]? = some flag → flag ∈ ["", "false", "true"]) ∨
      ∃ flag, flags[0]? = some flag ∧ lengthFlag flags = .error (.lengthFlag flag) ∧
        flag ∉ ["", "false", "true"] := by
  cases flags with
  | nil => exact Or.inl ⟨rfl, nofun⟩
  | cons flag rest =>
    simp only [lengthFlag, List.getElem?_cons_zero, Option.some.injEq, forall_eq', exists_eq_left', List.mem_cons,
      List.not_mem_nil, or_false]
    by_cases modified : flag = "true"
    · rw [if_pos modified, decide_eq_true modified]
      exact Or.inl ⟨rfl, Or.inr (Or.inr modified)⟩
    rw [if_neg modified, decide_eq_false modified]
    by_cases kept : flag = "" ∨ flag = "false"
    · rw [if_pos kept]
      exact Or.inl ⟨rfl, kept.imp_right Or.inl⟩
    · rw [if_neg kept]
      refine Or.inr ⟨rfl, ?_⟩
      rintro (empty | off | on)
      · exact kept (Or.inl empty)
      · exact kept (Or.inr off)
      · exact modified on

/-- Slots are taken for a column that is written back as they are, or refused for what is wrong with them. -/
theorem ofSlots_cases (slots : List String) :
    (∃ c, ofSlots slots = .ok c ∧ HasCount slots ∧ HasFlag slots ∧ HasMute slots ∧
      c.slots = slots.take 10 ++ if slots[10]? = some "true" then ["true"] else []) ∨
      ∃ e, ofSlots slots = .error e ∧ Flaw slots e := by
  by_cases count : HasCount slots
  swap
  · exact Or.inr ⟨_, ofSlots_count count, .count count⟩
  obtain ⟨text, a, b, c, d, e, f, effects, noteLength, id, flags, rfl, few⟩ := count.slots_cases
  have started : ofSlots (text :: a :: b :: c :: d :: e :: f :: effects :: noteLength :: id :: flags) =
      lengthFlag flags >>= fun modified => (PalmMute.ofSlot? text).elim (.error (.palmMute text)) fun palmMute =>
        .ok ⟨palmMute, #v[a, b, c, d, e, f], effects, noteLength, id, modified⟩ := by
    simp only [ofSlots, if_neg (Nat.not_lt.mpr few)]
    cases PalmMute.ofSlot? text <;> rfl
  rw [started]
  rcases lengthFlag_cases flags with ⟨read, known⟩ | ⟨flag, here, refused, unknown⟩
  · rw [read, Json.ok_bind]
    cases found : PalmMute.ofSlot? text with
    | some mute =>
      have word := PalmMute.exists_ofSlot?_iff.mp ⟨mute, found⟩
      refine Or.inl ⟨_, rfl, count, known, fun other same => Option.some.inj same ▸ word, ?_⟩
      have last : (if decide (flags[0]? = some "true") then ["true"] else []) =
          if flags[0]? = some "true" then ["true"] else [] := by simp only [decide_eq_true_eq]
      rw [← PalmMute.ofSlot?_eq_some_iff.mp found]
      exact congrArg ([mute.slot, a, b, c, d, e, f, effects, noteLength, id] ++ ·) last
    | none =>
      refine Or.inr ⟨_, rfl, .mute count known rfl fun word => ?_⟩
      obtain ⟨mute, same⟩ := PalmMute.exists_ofSlot?_iff.mpr word
      rw [found] at same
      cases same
  · rw [refused]
    exact Or.inr ⟨_, rfl, .flag count here unknown⟩

theorem Flaw.unique {e f : ColumnError} (first : Flaw slots e) (second : Flaw slots f) : e = f := by
  cases first with
  | count other =>
    cases second with
    | count => rfl
    | flag count | mute count => exact absurd count other
  | flag count here unknown =>
    cases second with
    | count other => exact absurd count other
    | flag _ here' => rw [Option.some.inj (here.symm.trans here')]
    | mute _ known => exact absurd (known _ here) unknown
  | mute count known here unknown =>
    cases second with
    | count other => exact absurd count other
    | flag _ here' unknown' => exact absurd (known _ here') unknown'
    | mute _ _ here' => rw [Option.some.inj (here.symm.trans here')]

/-- Slots without a flaw have nothing wrong in them, whichever way it is looked at. -/
theorem Flaw.refuses {e : ColumnError} (flaw : Flaw slots e) : ¬(HasCount slots ∧ HasFlag slots ∧ HasMute slots) := by
  rintro ⟨count, flag, mute⟩
  cases flaw with
  | count other => exact other count
  | flag _ here unknown => exact unknown (flag _ here)
  | mute _ _ here unknown => exact unknown (mute _ here)

/-- A column is stored in slots from which it is read again. Slots are read as a column just if they are ten, or
eleven with a known flag, and begin with a known palm mute; they are then what is written for it, up to the spelling
of the flag. What is wrong with others is told as the first of count, flag and palm mute, with what was found. -/
theorem slots_exact :
    (∀ c : Column, ofSlots c.slots = .ok c) ∧
      (∀ slots, (∃ c, ofSlots slots = .ok c) ↔ HasCount slots ∧ HasFlag slots ∧ HasMute slots) ∧
      (∀ slots c, ofSlots slots = .ok c →
        c.slots = slots.take 10 ++ if slots[10]? = some "true" then ["true"] else []) ∧
      (∀ slots e, ofSlots slots = .error e ↔ Flaw slots e) ∧
      ∀ e f : ColumnError, e.message = f.message → e = f := by
  refine ⟨ofSlots_slots, fun slots => ?_, fun slots c read => ?_, fun slots e => ?_, fun _ _ => ColumnError.message_inj⟩
  · rcases ofSlots_cases slots with ⟨c, read, count, flag, mute, _⟩ | ⟨e, refused, flaw⟩
    · exact ⟨fun _ => ⟨count, flag, mute⟩, fun _ => ⟨c, read⟩⟩
    · refine ⟨fun ⟨c, read⟩ => ?_, fun sound => absurd sound flaw.refuses⟩
      rw [refused] at read
      cases read
  · rcases ofSlots_cases slots with ⟨d, read', _, _, _, written⟩ | ⟨e, refused, _⟩
    · rw [read] at read'
      cases read'
      exact written
    · rw [refused] at read
      cases read
  · rcases ofSlots_cases slots with ⟨c, read, count, flag, mute, _⟩ | ⟨f, refused, flaw⟩
    · rw [read]
      exact ⟨nofun, fun flaw => absurd ⟨count, flag, mute⟩ flaw.refuses⟩
    · rw [refused]
      exact ⟨fun same => Except.error.inj same ▸ flaw, fun other => congrArg _ (flaw.unique other)⟩

/-- Ten slots and eleven are read, the flag in all of its spellings; an unknown flag is told before an unknown
mute. -/
example : let ten := ["start", "", "", "", "", "3", "0", "h", "eighth", "c"]
    (ofSlots ten).map Column.slots = .ok ten ∧ (ofSlots (ten ++ ["false"])).map Column.slots = .ok ten ∧
      (ofSlots (ten ++ ["true"])).map Column.slots = .ok (ten ++ ["true"]) ∧
      ofSlots ("loud" :: ten.tail ++ ["yes"]) = .error (.lengthFlag "yes") := by decide

end Column

end Tablature
