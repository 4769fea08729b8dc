/- # What is written is canonical

What is written of a location, of a candidate or of a setting is read back as the same value.  The other way is not so:
a class may be spelt with dots, the fields of a record may come by place, and the parameters of a setting may be
missing.  So a JSON value that is read as `a` is one of many, and what is written of `a` is the one among them with
slashes and with parameters (`json_canonical`).

Locations, identifiers and candidates hold each other in their first fields, and a class text stands at the end of the
path of first fields (`Form.NamesClass`).  What holds of the class text is carried outwards by one field at a time
(`Form.NamesClass.field`), since changing the first field of a record leaves the others as they are
(`recordFields_mapFirst`).  A class itself is read back from what is written of it because no class name has a dot.
-/

import LoopPlumbing.Json.Codec
import LoopPlumbing.Proofs.Feature.Params

namespace LoopPlumbing

open Bytecode (ClassName Location slashed)

namespace Json

/-- Changes a text. -/
def mapText (f : String → String) : Json → Json
  | text s => text (f s)
  | j => j

/-- The first field of a record, by name in an object and by place in a list. -/
def first? (name : String) : Json → Option Json
  | object fields => fields.lookup name
  | list elements => elements.head?
  | _ => none

/-- Changes the first field of a record. -/
def mapFirst (name : String) (f : Json → Json) : Json → Json
  | object fields => object (fields.map fun field => (field.1, if field.1 = name then f field.2 else field.2))
  | list elements => list (elements.modifyHead f)
  | j => j

/-- What stands at the end of a path of first fields. -/
def along? : List String → Json → Option Json
  | [], j => some j
  | name :: path, j => (j.first? name).bind (along? path)

/-- Changes what stands at the end of a path of first fields. -/
def mapAlong (f : Json → Json) : List String → Json → Json
  | [], j => f j
  | name :: path, j => j.mapFirst name (mapAlong f path)

/-! ### The first field of a record

Records are read from objects by name and from lists by place.  Either way a change to what the first field holds is a
change to the first of the fields read.
-/

section Fields

variable {name : String} {others : List String} {f : Json → Json} {j v : Json} {rest : List (Option Json)}

/-- Looking a field up after the field `name` was changed. -/
theorem lookup_map_first (fields : List (String × Json)) (other : String) :
    (fields.map fun field => (field.1, if field.1 = name then f field.2 else field.2)).lookup other =
      if other = name then (fields.lookup other).map f else fields.lookup other := by
  induction fields with
  | nil => simp
  | cons field fields ih =>
      rw [List.map_cons, List.lookup_cons, List.lookup_cons, ih]
      by_cases found : other = field.1
      · subst found
        by_cases same : field.1 = name
        · simp [same]
        · simp [same]
      · rw [beq_false_of_ne found]

/-- A field that is changed keeps its name. -/
theorem isRepeated_map_first (fields : List (String × Json)) :
    isRepeated (fields.map fun field => (field.1, if field.1 = name then f field.2 else field.2)) =
      isRepeated fields := by
  have names : ((fields.map fun field => (field.1, if field.1 = name then f field.2 else field.2)).map (·.1)) =
      fields.map (·.1) := List.map_map
  funext other
  rw [isRepeated, isRepeated, names]

/-- **Only the first field is changed.** -/
theorem recordFields_mapFirst (absent : name ∉ others) :
    (j.mapFirst name f).recordFields (name :: others) =
      (j.recordFields (name :: others)).map (List.modifyHead (Option.map f)) := by
  cases j with
  | object fields =>
      have kept : (others.map fun other => (fields.map fun field =>
          (field.1, if field.1 = name then f field.2 else field.2)).lookup other) =
          others.map fun other => fields.lookup other := by
        refine List.map_congr_left fun other h => (lookup_map_first fields other).trans (if_neg ?_)
        rintro rfl
        exact absent h
      simp only [mapFirst, recordFields, isRepeated_map_first, List.map_cons, kept]
      rw [lookup_map_first, if_pos rfl]
      split <;> rfl
  | list elements =>
      cases elements with
      | nil => simp [mapFirst, recordFields, List.replicate_succ]
      | cons first elements =>
          simp only [mapFirst, recordFields, List.modifyHead_cons, List.length_cons]
          split <;> simp
  | null | bool b | integer n | real m p | text s => rfl

/-- A record whose first field was changed is read with a first field that is what some value was changed to. -/
theorem recordFields_mapFirst_eq_some (absent : name ∉ others) :
    (j.mapFirst name f).recordFields (name :: others) = some (some v :: rest) ↔
      ∃ u, j.recordFields (name :: others) = some (some u :: rest) ∧ f u = v := by
  rw [recordFields_mapFirst absent, Option.map_eq_some_iff]
  constructor
  · rintro ⟨fields, h, changed⟩
    match fields, changed with
    | some u :: rest, rfl => exact ⟨u, h, rfl⟩
  · rintro ⟨u, h, rfl⟩
    exact ⟨some u :: rest, h, rfl⟩

/-- The first field of a record that can be read is where `first?` looks for it. -/
theorem first?_of_recordFields (h : j.recordFields (name :: others) = some (some v :: rest)) :
    j.first? name = some v := by
  cases j with
  | object fields =>
      rw [recordFields] at h
      split at h
      · cases h
      · simp only [List.map_cons, Option.some.injEq, List.cons.injEq] at h
        exact h.1
  | list elements =>
      cases elements with
      | nil => simp [recordFields, List.replicate_succ] at h
      | cons first elements =>
          simp only [recordFields] at h
          split at h
          · simp only [List.map_cons, List.cons_append, Option.some.injEq, List.cons.injEq] at h
            exact congrArg some h.1
          · cases h
  | null | bool b | integer n | real m p | text s => cases h

end Fields

/-! ### Forms

A form is a reader with a writer.  What has to hold of both is stated for the class text at the end of a path, so that
putting a record around a value only makes the path longer.
-/

section Forms

/-- How the values of a type are read and written. -/
structure Form (α : Type) where
  read : Json → Option α
  write : α → Json

variable {α β : Type} {inner : Form α} {outer : Form β} {name : String} {others path : List String} {part : β → α}
  {rest : List (Option Json) → β → Prop} {className : α → ClassName}

/-- What is written is read back.  At the end of a path stands a class text: its spelling does not matter to the value
read, which has the class so named, and the spelling written is that of the class. -/
structure Form.NamesClass (form : Form α) (path : List String) (className : α → ClassName) : Prop where
  read_write : ∀ a, form.read (form.write a) = some a
  read_respelled : ∀ f : String → String, (∀ t, ClassName.ofText (f t) = .ofText t) →
    ∀ j, form.read (j.mapAlong (mapText f) path) = form.read j
  class_of_read : ∀ {j a}, form.read j = some a → ∃ t, j.along? path = some (.text t) ∧ className a = .ofText t
  class_of_write : ∀ a, (form.write a).along? path = some (.text (className a).internal)

/-- Records whose first field holds a part of the value; `rest` says what the other fields hold. -/
structure Form.FirstField (inner : Form α) (outer : Form β) (name : String) (others : List String) (part : β → α)
    (rest : List (Option Json) → β → Prop) : Prop where
  absent : name ∉ others
  read_eq_some : ∀ {j b}, outer.read j = some b ↔ ∃ v vs, j.recordFields (name :: others) = some (some v :: vs) ∧
    inner.read v = some (part b) ∧ rest vs b
  fields_write : ∀ b, ∃ vs,
    (outer.write b).recordFields (name :: others) = some (some (inner.write (part b)) :: vs) ∧ rest vs b

/-- **What holds of the first field holds of the record.** -/
theorem Form.NamesClass.field (h : inner.NamesClass path className)
    (w : inner.FirstField outer name others part rest) :
    outer.NamesClass (name :: path) fun b => className (part b) where
  read_write b := by
    obtain ⟨vs, fields, ok⟩ := w.fields_write b
    exact w.read_eq_some.2 ⟨_, vs, fields, h.read_write _, ok⟩
  read_respelled f same j := by
    refine Option.ext fun b => ?_
    rw [mapAlong, w.read_eq_some, w.read_eq_some]
    constructor
    · rintro ⟨v, vs, fields, first, ok⟩
      obtain ⟨u, fields', rfl⟩ := (recordFields_mapFirst_eq_some w.absent).1 fields
      exact ⟨u, vs, fields', (h.read_respelled f same u).symm.trans first, ok⟩
    · rintro ⟨u, vs, fields, first, ok⟩
      exact ⟨_, vs, (recordFields_mapFirst_eq_some w.absent).2 ⟨u, fields, rfl⟩,
        (h.read_respelled f same u).trans first, ok⟩
  class_of_read {j b} hj := by
    obtain ⟨v, vs, fields, first, -⟩ := w.read_eq_some.1 hj
    obtain ⟨t, found, named⟩ := h.class_of_read first
    refine ⟨t, ?_, named⟩
    rw [along?, first?_of_recordFields fields]
    exact found
  class_of_write b := by
    obtain ⟨vs, fields, -⟩ := w.fields_write b
    rw [along?, first?_of_recordFields fields]
    exact h.class_of_write _

/-- What is written is read back.  Of a JSON value that is read, the class text at the end of the path may be spelt with
slashes, and what is written of the value read is read as the same value and spells that class with slashes. -/
structure Form.Canonical (form : Form α) (path : List String) : Prop where
  read_write : ∀ a, form.read (form.write a) = some a
  of_read : ∀ {j a}, form.read j = some a → ∃ t, j.along? path = some (.text t) ∧
    form.read (j.mapAlong (mapText fun t => t.map slashed) path) = some a ∧
    form.read (form.write a) = some a ∧ (form.write a).along? path = some (.text (t.map slashed))

/-- Where the spelling of the class does not matter, what is written is the one spelling with slashes. -/
theorem Form.NamesClass.canonical (h : inner.NamesClass path className) : inner.Canonical path where
  read_write := h.read_write
  of_read {j a} hj := by
    obtain ⟨t, found, named⟩ := h.class_of_read hj
    refine ⟨t, found, ?_, h.read_write a, ?_⟩
    · exact (h.read_respelled _ (fun t => (ClassName.ofText t).ofText_internal) j).trans hj
    · rw [h.class_of_write, named]
      rfl

end Forms

/-- A number below the limit passes the limit. -/
theorem below?_integer {limit n : Nat} (h : n < limit) : (integer n).below? limit = some n := by
  simp [below?, h]

/-- What is written element by element is read so. -/
theorem mapM_map_eq_some {α β : Type} {read : β → Option α} {write : α → β} (h : ∀ a, read (write a) = some a)
    (l : List α) : (l.map write).mapM read = some l := by
  have inverse : read ∘ write = fun a => pure a := funext h
  rw [List.mapM_map, inverse, List.mapM_pure, List.map_id']
  rfl

end Json

open Json (Form)

/-! ### Locations, identifiers and candidates

Each is a record whose first field holds the one before.
-/

section Candidates

namespace Bytecode

/-- The form of a class name. -/
def ClassName.form : Form ClassName := ⟨ofJson?, toJson⟩

/-- The form of a location. -/
def Location.form : Form Location := ⟨ofJson?, toJson⟩

/-- A class is a text. -/
theorem ClassName.form_namesClass : ClassName.form.NamesClass [] id where
  read_write n := congrArg some n.ofText_internal
  read_respelled f same j := by
    cases j with
    | text t => exact congrArg some (same t)
    | null | bool b | integer n | real m p | list l | object l => rfl
  class_of_read {j n} h := by
    cases j with
    | text t => exact ⟨t, rfl, (Option.some.inj h).symm⟩
    | null | bool b | integer n | real m p | list l | object l => cases h
  class_of_write _ := rfl

/-- The class is the first field of a location. -/
theorem Location.form_firstField : ClassName.form.FirstField Location.form "class" ["method", "descriptor"]
    (·.className) fun vs l => ∃ method descriptor, vs = [some method, some descriptor] ∧
      method.text? = some l.method ∧ descriptor.text? = some l.descriptor where
  absent := by decide
  read_eq_some {j l} := by
    change Location.ofJson? j = some l ↔ ∃ v vs, _ ∧ ClassName.ofJson? v = _ ∧ _
    constructor
    · intro h
      unfold ofJson? at h
      split at h
      · next c m d fields =>
          simp only [Option.bind_eq_bind, Option.bind_eq_some_iff, Option.pure_def, Option.some.injEq] at h
          obtain ⟨_, className, _, method, _, descriptor, rfl⟩ := h
          exact ⟨c, _, fields, className, m, d, rfl, method, descriptor⟩
      · cases h
    · rintro ⟨c, _, fields, className, m, d, rfl, method, descriptor⟩
      simp [ofJson?, fields, className, method, descriptor]
  fields_write l := ⟨_, rfl, _, _, rfl, rfl, rfl⟩

end Bytecode

/-- The form of an identifier. -/
def CandidateId.form : Form CandidateId := ⟨ofJson?, toJson⟩

/-- The form of a candidate. -/
def Candidate.form : Form Candidate := ⟨ofJson?, toJson⟩

/-- The location is the first field of an identifier. -/
theorem CandidateId.form_firstField : Location.form.FirstField CandidateId.form "location" ["index", "mutator"]
    (·.location) fun vs i => ∃ index mutator, vs = [some index, some mutator] ∧
      (∃ n, index.below? UInt64.size = some n ∧ .ofNat n = i.index) ∧ mutator.text? = some i.mutator where
  absent := by decide
  read_eq_some {j i} := by
    change CandidateId.ofJson? j = some i ↔ ∃ v vs, _ ∧ Location.ofJson? v = _ ∧ _
    constructor
    · intro h
      unfold ofJson? at h
      split at h
      · next l n m fields =>
          simp only [Option.bind_eq_bind, Option.bind_eq_some_iff, Option.pure_def, Option.some.injEq] at h
          obtain ⟨_, location, index, below, _, mutator, rfl⟩ := h
          exact ⟨l, _, fields, location, n, m, rfl, ⟨index, below, rfl⟩, mutator⟩
      · cases h
    · rintro ⟨l, _, fields, location, n, m, rfl, ⟨index, below, same⟩, mutator⟩
      simp [ofJson?, fields, location, below, same, mutator]
  fields_write i := ⟨_, rfl, _, _, rfl,
    ⟨_, Json.below?_integer i.index.toNat_lt_size, UInt64.ofNat_toNat⟩, rfl⟩

/-- The identifier is the first field of a candidate. -/
theorem Candidate.form_firstField : CandidateId.form.FirstField Candidate.form "id"
    ["filename", "description", "line_number"] (·.id) fun vs c => ∃ filename description line,
      vs = [some filename, some description, some line] ∧ filename.text? = some c.filename ∧
      description.text? = some c.description ∧ ∃ n, line.below? UInt32.size = some n ∧ .ofNat n = c.line where
  absent := by decide
  read_eq_some {j c} := by
    change Candidate.ofJson? j = some c ↔ ∃ v vs, _ ∧ CandidateId.ofJson? v = _ ∧ _
    constructor
    · intro h
      unfold ofJson? at h
      split at h
      · next i f d n fields =>
          simp only [Option.bind_eq_bind, Option.bind_eq_some_iff, Option.pure_def, Option.some.injEq] at h
          obtain ⟨_, id, _, filename, _, description, line, below, rfl⟩ := h
          exact ⟨i, _, fields, id, f, d, n, rfl, filename, description, line, below, rfl⟩
      · cases h
    · rintro ⟨i, _, fields, id, f, d, n, rfl, filename, description, line, below, same⟩
      simp [ofJson?, fields, id, filename, description, below, same]
  fields_write c := ⟨_, rfl, _, _, _, rfl, rfl, rfl, _, Json.below?_integer c.line.toNat_lt_size, UInt32.ofNat_toNat⟩

/-- A location is read back, and the class in its first field may be spelt either way. -/
theorem Bytecode.Location.form_namesClass : Location.form.NamesClass ["class"] (·.className) :=
  ClassName.form_namesClass.field form_firstField

/-- An identifier is read back, and so is the class of its location, spelt either way. -/
theorem CandidateId.form_namesClass : CandidateId.form.NamesClass ["location", "class"] (·.className) :=
  Location.form_namesClass.field form_firstField

/-- A candidate is read back, and so is the class at the end of three first fields, spelt either way. -/
theorem Candidate.form_namesClass : Candidate.form.NamesClass ["id", "location", "class"] (·.id.className) :=
  CandidateId.form_namesClass.field form_firstField

end Candidates

/-! ### Settings -/

section Settings

/-- Parameters are read back, each key with all its values. -/
theorem Params.ofJson?_toJson (p : Params) : Params.ofJson? p.toJson = some p := by
  have texts : ∀ values : List String, (Json.list (values.map .text)).texts? = some values :=
    Json.mapM_map_eq_some fun _ => rfl
  have entries : (p.entries.map fun e => (e.1, Json.list (e.2.map .text))).mapM
      (fun field => (fun values => (field.1, values)) <$> field.2.texts?) = some p.entries :=
    Json.mapM_map_eq_some (fun e => by rw [texts]; rfl) _
  rw [toJson, ofJson?, entries]
  exact congrArg some p.ofEntries_entries

/-- A setting is read back with its name, its sign and its parameters. -/
theorem Setting.ofJson?_toJson (s : Setting) : Setting.ofJson? s.toJson = some s := by
  have fields : s.toJson.recordFields ["name", "enabled", "params"] =
      some [some (.text s.name), some (.bool s.enabled), some s.params.toJson] := rfl
  simp [Setting.ofJson?, fields, Json.text?, Json.bool?, Params.ofJson?_toJson]

end Settings

/-- **What is written is read back, and it is canonical.**  Let a JSON value be read as a location, an identifier or a
candidate.  Then the class text in it may be spelt with slashes instead of dots; what is written of the value read is
read as that value, and it spells the class with slashes.  Likewise what is written of a setting is read as that
setting, and it holds the parameters even if they were missing. -/
theorem json_canonical :
    Location.form.Canonical ["class"] ∧ CandidateId.form.Canonical ["location", "class"] ∧
    Candidate.form.Canonical ["id", "location", "class"] ∧
    (∀ s : Setting, Setting.ofJson? s.toJson = some s) ∧
    ∀ j s, Setting.ofJson? j = some s → Setting.ofJson? s.toJson = some s ∧ ∃ fields,
      s.toJson.recordFields ["name", "enabled", "params"] =
        some [some (.text s.name), some (.bool s.enabled), some (.object fields)] ∧
      Params.ofJson? (.object fields) = some s.params :=
  ⟨Location.form_namesClass.canonical, CandidateId.form_namesClass.canonical, Candidate.form_namesClass.canonical,
    Setting.ofJson?_toJson, fun _ s _ => ⟨s.ofJson?_toJson, _, rfl, s.params.ofJson?_toJson⟩⟩

/-- A candidate whose class is spelt with dots, with fields by name and by place. -/
def dottedCandidate : Json :=
  .object [("line_number", .integer 20), ("description", .text "negated"), ("filename", .text "Loops.java"),
    ("id", .list [.list [.text "example.Loops", .text "sum", .text "([I)I"], .integer 3, .text "NEGATE"])]

/-- The class of `dottedCandidate` is written with a slash; a setting without parameters is written with none. -/
theorem json_canonical_dotted :
    (∃ c, Candidate.form.read dottedCandidate = some c ∧
      (Candidate.form.write c).along? ["id", "location", "class"] = some (.text "example/Loops")) ∧
    ∃ s, Setting.ofJson? (.object [("enabled", .bool true), ("name", .text "FFLOOP")]) = some s ∧
      Setting.ofJson? s.toJson = some s ∧ s.params = .empty := by
  constructor
  · have read : Candidate.form.read dottedCandidate = some
        ⟨⟨⟨.ofText "example.Loops", "sum", "([I)I"⟩, 3, "NEGATE"⟩, "Loops.java", "negated", 20⟩ := by rfl
    obtain ⟨t, found, -, -, written⟩ := json_canonical.2.2.1.of_read read
    have spelt : Json.text "example.Loops" = .text t := Option.some.inj found
    have respelt : t.map slashed = "example/Loops" := by
      cases spelt
      simp [← String.toList_inj, slashed]
    exact ⟨_, read, respelt ▸ written⟩
  · have read : Setting.ofJson? (.object [("enabled", .bool true), ("name", .text "FFLOOP")]) =
        some ⟨"FFLOOP", true, .empty⟩ := by rfl
    exact ⟨_, read, (json_canonical.2.2.2.2 _ _ read).1, rfl⟩

end LoopPlumbing
