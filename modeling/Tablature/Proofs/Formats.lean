import Tablature.Proofs.Ensures

namespace Tablature

variable {κ ι ε α σ : Type} {P : α → Prop} {I : σ → Prop}

/-- Whatever is read, from wherever on, has the property. -/
def Yields (P : α → Prop) (read : ι → Except ε (α × ι)) : Prop :=
  ∀ i, Ensures (fun result => P result.1) (read i)

theorem Yields.any (read : ι → Except ε (α × ι)) : Yields (fun _ => True) read :=
  fun i => .trivial (read i)

/-- Setting a field does not break the invariant of its record. -/
def Keeps (I : σ → Prop) (set : κ → σ → ι → Except ε (σ × ι)) : Prop :=
  ∀ place record, I record → Yields I (set place record)

/-- A format of data files. A reader is told where its value stands and takes it from what is left of the text. What
holds of all items holds of a list, and what every field keeps holds of a record. -/
structure Format (κ ι ε : Type) where
  text : κ → ι → Except ε (String × ι)
  tempo : κ → ι → Except ε (Option Float × ι)
  count : κ → ι → Except ε (UInt32 × ι)
  subsection : κ → ι → Except ε (Subsection × ι)
  listOf {α : Type} : (κ → ι → Except ε (α × ι)) → κ → ι → Except ε (List α × ι)
  record {σ : Type} : Schema (κ → σ → ι → Except ε (σ × ι)) → σ → κ → ι → Except ε (σ × ι)
  whole {α : Type} : (κ → ι → Except ε (α × ι)) → List Char → Except ε α
  listOf_yields {α : Type} {P : α → Prop} {item : κ → ι → Except ε (α × ι)} :
    (∀ place, Yields P (item place)) → ∀ place, Yields (fun items => ∀ a ∈ items, P a) (listOf item place)
  record_yields {σ : Type} {I : σ → Prop} {schema : Schema (κ → σ → ι → Except ε (σ × ι))} {default : σ} :
    (∀ field ∈ schema.fields, Keeps I field.read) → I default → ∀ place, Yields I (record schema default place)
  whole_ensures {α : Type} {P : α → Prop} {read : κ → ι → Except ε (α × ι)} :
    (∀ place, Yields P (read place)) → ∀ source, Ensures P (whole read source)

namespace Format

/-- Sets a part of a record to what is read. -/
def into (read : κ → ι → Except ε (α × ι)) (set : σ → α → σ) : κ → σ → ι → Except ε (σ × ι) :=
  fun place record i => do
    let (a, rest) ← read place i
    return (set record a, rest)

theorem into_keeps {read : κ → ι → Except ε (α × ι)} {set : σ → α → σ} (reads : ∀ place, Yields P (read place))
    (keeps : ∀ record a, I record → P a → I (set record a)) : Keeps I (into read set) :=
  fun place record holds i => (reads place i).bind fun result read => .ok (keeps record result.1 holds read)

/-- A part that the invariant does not look at may be set to anything. -/
theorem into_keeps_beside {read : κ → ι → Except ε (α × ι)} {set : σ → α → σ}
    (keeps : ∀ record a, I record → I (set record a)) : Keeps I (into read set) :=
  into_keeps (fun place => .any (read place)) fun record a holds _ => keeps record a holds

section Documents

variable (format : Format κ ι ε)

def sectionSchema : Schema (κ → Section → ι → Except ε (Section × ι)) :=
  { title := "struct Section"
    fields := [
      { name := "id", required := true, read := into format.text fun s id => { s with id } },
      { name := "title", read := into format.text fun s title => { s with title } },
      { name := "data"
        read := into (format.listOf format.subsection) fun s subsections => { s with subsections } }] }

def entrySchema : Schema (κ → ProgressionEntry → ι → Except ε (ProgressionEntry × ι)) :=
  { title := "struct ProgressionEntry"
    fields := [
      { name := "id", read := into format.text fun e id => { e with id } },
      { name := "sectionId", required := true, read := into format.text fun e sectionId => { e with sectionId } },
      { name := "title", read := into format.text fun e title => { e with title } },
      { name := "repetitions", read := into format.count fun e repetitions => { e with repetitions } }] }

def documentSchema : Schema (κ → Document → ι → Except ε (Document × ι)) :=
  { title := "struct TabDocument"
    fields := [
      { name := "title", read := into format.text fun d title => { d with title } },
      { name := "bpm", read := into format.tempo fun d bpm => { d with bpm } },
      { name := "sections"
        read := into (format.listOf (format.record format.sectionSchema {})) fun d sections =>
          { d with sections } },
      { name := "sectionProgression"
        read := into (format.listOf (format.record format.entrySchema {})) fun d progression =>
          { d with progression } }] }

/-- The document that is written in the format. -/
def document (source : List Char) : Except ε Document :=
  format.whole (format.record format.documentSchema {}) source

end Documents

end Format

end Tablature
