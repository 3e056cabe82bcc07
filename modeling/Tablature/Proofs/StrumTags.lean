import Mathlib.Data.List.Nodup
import Mathlib.Data.List.TakeWhile
import Tablature.Document.Strum

namespace Tablature

section Blanks

variable {cs core lead trail : List Char}

def AllBlank (cs : List Char) : Prop :=
  ∀ c ∈ cs, isBlank c = true

/-- A text without blanks at its ends. -/
structure IsCore (core : List Char) : Prop where
  begins : ∀ c, core.head? = some c → isBlank c = false
  ends : ∀ c, core.getLast? = some c → isBlank c = false

/-- A text is another one with blanks around it. -/
def Frames (cs core : List Char) : Prop :=
  ∃ lead trail, AllBlank lead ∧ AllBlank trail ∧ cs = lead ++ core ++ trail

theorem dropBlanks_frame (blank : AllBlank lead) (begins : ∀ c, core.head? = some c → isBlank c = false) :
    dropBlanks (lead ++ core) = core := by
  rw [dropBlanks, List.dropWhile_append_of_pos blank, List.dropWhile_eq_self_iff]
  intro filled
  rw [begins _ (List.head?_eq_getElem? ▸ List.getElem?_eq_getElem filled)]
  exact Bool.false_ne_true

/-- Dropping the blanks in front leaves a text that does not begin with one. -/
theorem dropBlanks_cases (cs : List Char) :
    ∃ lead, AllBlank lead ∧ cs = lead ++ dropBlanks cs ∧ ∀ c, (dropBlanks cs).head? = some c → isBlank c = false := by
  refine ⟨cs.takeWhile isBlank, fun c member => List.mem_takeWhile_imp member, ?_, fun c first => ?_⟩
  · exact List.takeWhile_append_dropWhile.symm
  · have stops := List.head?_dropWhile_not isBlank cs
    rw [show cs.dropWhile isBlank = dropBlanks cs from rfl, first] at stops
    exact stops

theorem trim_frames (cs : List Char) : IsCore (trim cs) ∧ Frames cs (trim cs) := by
  obtain ⟨lead, leadBlank, split, begins⟩ := dropBlanks_cases cs
  obtain ⟨back, backBlank, splitBack, ends⟩ := dropBlanks_cases (dropBlanks cs).reverse
  have middle : dropBlanks cs = trim cs ++ back.reverse := by
    rw [trim, ← List.reverse_append, ← splitBack, List.reverse_reverse]
  refine ⟨⟨fun c first => begins c ?_, fun c last => ends c ?_⟩, lead, back.reverse, leadBlank, fun c member => ?_, ?_⟩
  · rw [middle, List.head?_append, first, Option.some_or]
  · rwa [trim, List.getLast?_reverse] at last
  · exact backBlank c (List.mem_reverse.mp member)
  · rw [List.append_assoc, ← middle, ← split]

theorem Frames.trim (frames : Frames cs core) (solid : IsCore core) : trim cs = core := by
  obtain ⟨lead, trail, leadBlank, trailBlank, rfl⟩ := frames
  rw [Tablature.trim]
  cases core with
  | nil =>
    have blank : AllBlank (lead ++ trail) := List.forall_mem_append.mpr ⟨leadBlank, trailBlank⟩
    have dropped : dropBlanks (lead ++ trail ++ []) = [] := dropBlanks_frame blank nofun
    rw [List.append_nil] at dropped ⊢
    rw [dropped]
    rfl
  | cons c cs =>
    have front : dropBlanks (lead ++ (c :: cs ++ trail)) = c :: cs ++ trail := dropBlanks_frame leadBlank solid.begins
    have trailBack : AllBlank trail.reverse := fun d member => trailBlank d (List.mem_reverse.mp member)
    have back : dropBlanks (trail.reverse ++ (c :: cs).reverse) = (c :: cs).reverse := by
      refine dropBlanks_frame trailBack fun d first => solid.ends d ?_
      rwa [List.head?_reverse] at first
    rw [List.append_assoc, front, List.reverse_append, back, List.reverse_reverse]

end Blanks

namespace StrumTag

variable {tag : StrumTag} {gesture : Gesture} {c : Char} {cs done core : List Char}

/-- The signs of the gestures that sound. -/
inductive Sounding : Char → Gesture → Prop
  | down : Sounding 'v' .down
  | up : Sounding '^' .up
  | slap : Sounding 's' .slap

/-- A gesture with its decorations. -/
def dressed (gesture : Gesture) (decorations : List Char) : StrumTag :=
  ⟨gesture, decide ('>' ∈ decorations), decide ('.' ∈ decorations)⟩

/-- The tags that there are: nothing, a rest, or a gesture that sounds, with an accent and a staccato at most
once each, in any order. -/
inductive Spells : List Char → StrumTag → Prop
  | silent : Spells [] (dressed .silent [])
  | rest : Spells ['r'] (dressed .rest [])
  | sounding {sign : Char} {gesture : Gesture} {decorations : List Char} (sounds : Sounding sign gesture)
      (known : ∀ c ∈ decorations, c = '>' ∨ c = '.') (once : decorations.Nodup) :
      Spells (sign :: decorations) (dressed gesture decorations)

/-- What can be wrong with a text that is no tag. A blank inside is one of the strangers. -/
inductive Misspelt : List Char → Prop
  | gesture {sign : Char} {decorations : List Char} (unknown : sign ∉ ['v', '^', 's', 'r']) :
      Misspelt (sign :: decorations)
  | stranger {sign c : Char} {decorations : List Char} (inside : c ∈ decorations) (unknown : c ≠ '>' ∧ c ≠ '.') :
      Misspelt (sign :: decorations)
  | repeated {sign : Char} {decorations : List Char} (twice : ¬decorations.Nodup) : Misspelt (sign :: decorations)
  | decoratedRest {decorations : List Char} (decorated : decorations ≠ []) : Misspelt ('r' :: decorations)

theorem decorate_known (known : c = '>' ∨ c = '.') (gesture : Gesture) (done cs : List Char) :
    decorate (dressed gesture done) (c :: cs) =
      if c ∈ done then none else decorate (dressed gesture (done ++ [c])) cs := by
  rcases known with rfl | rfl
  · simp [decorate, dressed]
  · simp [decorate, dressed]

theorem decorate_stranger (unknown : ¬(c = '>' ∨ c = '.')) (tag : StrumTag) (cs : List Char) :
    decorate tag (c :: cs) = none := by
  obtain ⟨noAccent, noStaccato⟩ := not_or.mp unknown
  rw [decorate.eq_def]
  split
  · next start => cases start
  · next start => exact absurd (List.cons.inj start).1 noAccent
  · next start => exact absurd (List.cons.inj start).1 noStaccato
  · rfl

/-- Decorations are taken one after the other, each as long as it was not yet there. -/
theorem decorate_eq_some_iff (once : done.Nodup) : decorate (dressed gesture done) cs = some tag ↔
    (∀ c ∈ cs, c = '>' ∨ c = '.') ∧ (done ++ cs).Nodup ∧ tag = dressed gesture (done ++ cs) := by
  induction cs generalizing done with
  | nil =>
    rw [List.append_nil, decorate, Option.some.injEq]
    exact ⟨fun same => ⟨nofun, once, same.symm⟩, fun spelt => spelt.2.2.symm⟩
  | cons c cs ih =>
    by_cases known : c = '>' ∨ c = '.'
    · rw [decorate_known known, List.forall_mem_cons]
      by_cases again : c ∈ done
      · rw [if_pos again]
        refine ⟨nofun, fun spelt => ?_⟩
        obtain ⟨_, _, distinct⟩ := List.nodup_append.mp spelt.2.1
        exact absurd rfl (distinct c again c List.mem_cons_self)
      · have more : (done ++ [c]).Nodup := by
          rw [← List.concat_eq_append]
          exact (List.nodup_concat done c).mpr ⟨again, once⟩
        rw [if_neg again, ih more, ← List.append_cons]
        exact ⟨fun spelt => ⟨⟨known, spelt.1⟩, spelt.2⟩, fun spelt => ⟨spelt.1.2, spelt.2⟩⟩
    · rw [decorate_stranger known]
      exact ⟨nofun, fun spelt => absurd (spelt.1 c List.mem_cons_self) known⟩

theorem gestureOf_eq_some_iff : gestureOf c = some gesture ↔ Sounding c gesture ∨ c = 'r' ∧ gesture = .rest := by
  constructor
  · intro found
    unfold gestureOf at found
    split at found
    · cases found
      exact Or.inl .down
    · cases found
      exact Or.inl .up
    · cases found
      exact Or.inl .slap
    · cases found
      exact Or.inr ⟨rfl, rfl⟩
    · cases found
  · rintro (sounding | ⟨rfl, rfl⟩)
    · cases sounding <;> rfl
    · rfl

/-- Decorations are only in the way of a gesture that makes no sound. -/
theorem muted_iff (known : ∀ c ∈ cs, c = '>' ∨ c = '.') (gesture : Gesture) :
    (((dressed gesture cs).accented || (dressed gesture cs).staccato) && !sounds gesture) = true ↔
      ¬(sounds gesture = true ∨ cs = []) := by
  have shown : ('>' ∈ cs ∨ '.' ∈ cs) ↔ cs ≠ [] := by
    constructor
    · rintro shown rfl
      exact shown.elim nofun nofun
    · intro filled
      obtain ⟨c, member⟩ := List.exists_mem_of_ne_nil cs filled
      rcases known c member with rfl | rfl
      · exact Or.inl member
      · exact Or.inr member
  rw [not_or, Bool.and_eq_true, Bool.or_eq_true, dressed, decide_eq_true_iff, decide_eq_true_iff, shown,
    Bool.not_eq_true', Bool.not_eq_true, and_comm]

theorem ofChars?_cons_eq_some_iff : ofChars? (c :: cs) = some tag ↔ ∃ gesture, gestureOf c = some gesture ∧
    (∀ d ∈ cs, d = '>' ∨ d = '.') ∧ cs.Nodup ∧ (sounds gesture = true ∨ cs = []) ∧ tag = dressed gesture cs := by
  simp only [ofChars?, Option.bind_eq_bind, Option.bind_eq_some_iff]
  refine exists_congr fun gesture => and_congr_right fun _ => ?_
  constructor
  · rintro ⟨spelt, taken, kept⟩
    obtain ⟨known, once, rfl⟩ := (decorate_eq_some_iff List.nodup_nil).mp taken
    split at kept
    · cases kept
    · next unmuted =>
      cases kept
      exact ⟨known, once, not_not.mp fun muted => unmuted ((muted_iff known gesture).mpr muted), rfl⟩
  · rintro ⟨known, once, free, rfl⟩
    refine ⟨dressed gesture cs, (decorate_eq_some_iff List.nodup_nil).mpr ⟨known, once, rfl⟩, if_neg fun muted => ?_⟩
    exact (muted_iff known gesture).mp muted free

theorem ofChars?_eq_some_iff : ofChars? cs = some tag ↔ Spells cs tag := by
  cases cs with
  | nil =>
    constructor
    · rintro ⟨⟩
      exact .silent
    · rintro ⟨⟩
      rfl
  | cons c cs =>
    rw [ofChars?_cons_eq_some_iff]
    constructor
    · rintro ⟨gesture, sign, known, once, free, rfl⟩
      rcases gestureOf_eq_some_iff.mp sign with sounding | ⟨rfl, rfl⟩
      · exact .sounding sounding known once
      · obtain rfl := free.resolve_left Bool.false_ne_true
        exact .rest
    · rintro (_ | _ | ⟨sounding, known, once⟩)
      · exact ⟨.rest, rfl, nofun, List.nodup_nil, Or.inr rfl, rfl⟩
      · refine ⟨_, gestureOf_eq_some_iff.mpr (Or.inl sounding), known, once, Or.inl ?_, rfl⟩
        cases sounding <;> rfl

theorem Spells.solid (spells : Spells core tag) : ∀ c ∈ core, isBlank c = false := by
  cases spells with
  | silent => exact nofun
  | rest => exact List.forall_mem_singleton.mpr rfl
  | sounding sounding known _ =>
    refine List.forall_mem_cons.mpr ⟨?_, fun c member => ?_⟩
    · cases sounding <;> rfl
    · rcases known c member with rfl | rfl <;> rfl

theorem Spells.isCore (spells : Spells core tag) : IsCore core where
  begins c first := spells.solid c (List.mem_of_head? first)
  ends c last := spells.solid c (List.mem_of_getLast? last)

theorem misspelt_iff : Misspelt cs ↔ ∀ tag, ¬Spells cs tag := by
  constructor
  · rintro misspelt tag spells
    cases spells with
    | silent => cases misspelt
    | rest =>
      cases misspelt with
      | gesture unknown => exact unknown (by decide)
      | stranger inside _ => cases inside
      | repeated twice => exact twice List.nodup_nil
      | decoratedRest decorated => exact decorated rfl
    | sounding sounding known once =>
      cases misspelt with
      | gesture unknown => cases sounding <;> exact unknown (by decide)
      | stranger inside unknown => exact (known _ inside).elim unknown.1 unknown.2
      | repeated twice => exact twice once
      | decoratedRest decorated => cases sounding
  · intro spelt
    cases cs with
    | nil => exact absurd .silent (spelt _)
    | cons sign decorations =>
      by_cases known : ∀ c ∈ decorations, c = '>' ∨ c = '.'
      · by_cases once : decorations.Nodup
        · by_cases sign : sign ∈ ['v', '^', 's', 'r']
          · simp only [List.mem_cons, List.not_mem_nil, or_false] at sign
            rcases sign with rfl | rfl | rfl | rfl
            · exact absurd (.sounding .down known once) (spelt _)
            · exact absurd (.sounding .up known once) (spelt _)
            · exact absurd (.sounding .slap known once) (spelt _)
            · refine .decoratedRest ?_
              rintro rfl
              exact spelt _ .rest
          · exact .gesture sign
        · exact .repeated once
      · simp only [not_forall, not_or] at known
        obtain ⟨c, inside, unknown⟩ := known
        exact .stranger inside unknown

/-- A text is read as a tag just if it spells that tag between blanks, and it is no tag just if something in what
stands between the blanks is misspelt. -/
theorem tags_exact (text : String) :
    (∀ tag, read? text = some tag ↔ ∃ core, Frames text.toList core ∧ Spells core tag) ∧
      (read? text = none ↔ ∃ core, Frames text.toList core ∧ IsCore core ∧ Misspelt core) := by
  obtain ⟨isCore, frames⟩ := trim_frames text.toList
  refine ⟨fun tag => ?_, ?_⟩
  · rw [read?, ofChars?_eq_some_iff]
    constructor
    · exact fun spells => ⟨trim text.toList, frames, spells⟩
    · rintro ⟨core, framed, spells⟩
      rwa [framed.trim spells.isCore]
  · have unread : read? text = none ↔ Misspelt (trim text.toList) := by
      simp only [read?, Option.eq_none_iff_forall_ne_some, ne_eq, ofChars?_eq_some_iff, misspelt_iff]
    rw [unread]
    constructor
    · exact fun misspelt => ⟨trim text.toList, frames, isCore, misspelt⟩
    · rintro ⟨core, framed, solid, misspelt⟩
      rwa [framed.trim solid]

end StrumTag

end Tablature
