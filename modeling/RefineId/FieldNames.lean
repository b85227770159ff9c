/-
  RefineId.FieldNames — the name of a new form field among those of the document.
  ════════════════════════════════════════════════════════════════════════════

  `existing_field_names` walks the trees of fields under `/AcroForm` with a stack of its
  own; `unique_field_name` takes the compact name, or the first free suffix.

  Main results:
    • `fieldWalk_isSome`       : the walk ends within the objects it may visit.
    • `existingFieldNames_tree` : a form that is accepted is a bounded forest in which every
                                 field is listed once, and all its names are known.
    • `freeSuffix_isSome`      : there are more suffixes than names.
    • `uniqueFieldName_fresh`  : the new name is the name of no field.
-/
import RefineId.Lib.Forest
import RefineId.PdfForm

namespace RefineId

namespace Pdf

open Lib

/-! ## §1. The fields of a form -/

section
variable (inflate : Bytes → Option Bytes) (index : PdfIndex)

/-- The interactive form of a catalog's `/AcroForm` value: itself, or the object it refers
    to. -/
def formBody (acroformValue : Bytes) : Outcome Bytes := do
  match ← asUnreadableForm (lift (completeObjectReference acroformValue)) with
  | some target => do
    let body ← index.objectBodyReference inflate target
    lift (okOr .unreadableForm body)
  | none => return acroformValue

/-- The references of a form's `/Fields`. -/
def formFields (acroform : Bytes) : Outcome (List PdfObjectReference) := do
  let acroformDictionary ← asUnreadableForm (lift (PdfDictionary.parse acroform))
  match ← asUnreadableForm (lift (acroformDictionary.entry (ascii "Fields"))) with
  | none => return []
  | some fieldsEntry =>
    asUnreadableForm (validationReferences inflate index (fieldsEntry.value.of acroform))

/-- The references of `/Fields` in the catalog's `/AcroForm`; none without either. -/
def formRoots (catalog : Bytes) : Outcome (List PdfObjectReference) := do
  let catalogDictionary ← asUnreadableForm (lift (PdfDictionary.parse catalog))
  match ← asUnreadableForm (lift (catalogDictionary.entry (ascii "AcroForm"))) with
  | none => return []
  | some acroformEntry => do
    let acroform ← formBody inflate index (acroformEntry.value.of catalog)
    formFields inflate index acroform

/-- The dictionary of a field, with its bytes. -/
def readField (target : PdfObjectReference) : Outcome (Bytes × PdfDictionary) := do
  let body ← index.objectBodyReference inflate target
  let field ← lift (okOr .unreadableForm body)
  let dictionary ← asUnreadableForm (lift (PdfDictionary.parse field))
  return (field, dictionary)

/-- The name a field's dictionary adds: none without `/T`, and none to know for a name that
    is not ASCII. -/
def partialOf (field : Bytes) (dictionary : PdfDictionary) : Outcome (Option (Option Text)) := do
  match ← asUnreadableForm (lift (dictionary.entry (ascii "T"))) with
  | none => return none
  | some entry =>
    let component ← lift (asciiFieldName (entry.value.of field))
    return some component

/-- The references of a dictionary's `/Kids`. -/
def kidsOf (field : Bytes) (dictionary : PdfDictionary) : Outcome (List PdfObjectReference) := do
  match ← asUnreadableForm (lift (dictionary.entry (ascii "Kids"))) with
  | none => return []
  | some entry => asUnreadableForm (validationReferences inflate index (entry.value.of field))

/-- The name a field adds. -/
def partialName (target : PdfObjectReference) : Outcome (Option (Option Text)) := do
  let (field, dictionary) ← readField inflate index target
  partialOf field dictionary

/-- The kids of a field. -/
def fieldKids (target : PdfObjectReference) : Outcome (List PdfObjectReference) := do
  let (field, dictionary) ← readField inflate index target
  kidsOf inflate index field dictionary

end

/-- A name under its parent's: the parent's own without `/T`, else joined by a full stop
    where the parent has one. -/
def joinName (parent : Option Text) : Option (Option Text) → Option Text
  | none => parent
  | some component =>
    match parent, component with
    | some parent, some component =>
      some (if parent.isEmpty then component else parent ++ chars "." ++ component)
    | _, _ => none

/-- A field reached from the roots, by the path that leads to it, the field first, and its
    fully qualified name; none for a name that is not ASCII. -/
inductive FieldAt (inflate : Bytes → Option Bytes) (index : PdfIndex)
    (roots : List PdfObjectReference) : List PdfObjectReference → Option Text → Prop where
  | root {target : PdfObjectReference} {part : Option (Option Text)} (h : target ∈ roots)
      (hname : partialName inflate index target = .ok part) :
      FieldAt inflate index roots [target] (joinName (some []) part)
  | kid {parent target : PdfObjectReference} {path kids : List PdfObjectReference}
      {name : Option Text} {part : Option (Option Text)}
      (above : FieldAt inflate index roots (parent :: path) name)
      (hkids : fieldKids inflate index parent = .ok kids) (h : target ∈ kids)
      (hname : partialName inflate index target = .ok part) :
      FieldAt inflate index roots (target :: parent :: path) (joinName name part)

/-- The fields under the roots form a bounded forest: every field is listed once, as a root
    or a kid, and no path to one is deeper than the limit. -/
structure FieldTree (inflate : Bytes → Option Bytes) (index : PdfIndex)
    (roots fields : List PdfObjectReference) : Prop where
  nodup : fields.Nodup
  listed : ∃ kids, List.Forall₂ (fun field kids => fieldKids inflate index field = .ok kids)
    fields kids ∧ fields.Perm (roots ++ kids.flatten)
  bounded : fields.length ≤ maxFormFieldObjects
  readable : ∀ field ∈ fields, ∃ part, partialName inflate index field = .ok part
  depth : ∀ path name, FieldAt inflate index roots path name → path.length ≤ maxFormFieldDepth

/-! ## §2. A field of the walk -/

variable {inflate : Bytes → Option Bytes} {index : PdfIndex}

theorem qualifiedFieldName_ok {parent component qualified : Option Text}
    (h : qualifiedFieldName parent component = .ok qualified) :
    qualified = joinName parent (some component) := by
  cases parent with
  | none => exact (Except.ok.inj h).symm
  | some parent =>
    cases component with
    | none => exact (Except.ok.inj h).symm
    | some component =>
      simp only [qualifiedFieldName] at h
      by_cases hlong : maxFieldNameBytes <
          (utf8Encode (if parent.isEmpty then component else parent ++ chars "." ++ component)).length
      · rw [if_pos hlong] at h
        exact absurd h (by simp)
      · rw [if_neg hlong] at h
        exact (Except.ok.inj h).symm

/-- The names know a name: every one but the empty name. -/
def Known (names : List Text) (name : Option Text) : Prop :=
  ∀ text, name = some text → text ≠ [] → text ∈ names

/-- The pending fields below a field. -/
def Expands (inflate : Bytes → Option Bytes) (index : PdfIndex) (field : PendingField)
    (pending : List PendingField) : Prop :=
  ∃ part kids, partialName inflate index field.target = .ok part ∧
    fieldKids inflate index field.target = .ok kids ∧
    pending = kids.map fun kid => ⟨kid, joinName field.parentName part, field.depth + 1⟩

theorem expands_fun (field : PendingField) (pending pending' : List PendingField)
    (h : Expands inflate index field pending) (h' : Expands inflate index field pending') :
    pending = pending' := by
  obtain ⟨part, kids, hpart, hkids, rfl⟩ := h
  obtain ⟨part', kids', hpart', hkids', rfl⟩ := h'
  obtain rfl := Except.ok.inj (hpart.symm.trans hpart')
  obtain rfl := Except.ok.inj (hkids.symm.trans hkids')
  rfl

/-- The names after a field: its own is known where its parent's was. -/
theorem fieldNames_ok {field : Bytes} {dictionary : PdfDictionary} {parent own : Option Text}
    {names names' : List Text} (h : fieldNames field dictionary parent names = .ok (own, names')) :
    ∃ part, partialOf field dictionary = .ok part ∧ own = joinName parent part ∧
      names ⊆ names' ∧ (Known names parent → Known names' own) := by
  unfold fieldNames at h
  obtain ⟨entry, hentry, h⟩ := bind_eq_ok.mp h
  cases entry with
  | none =>
    obtain ⟨rfl, rfl⟩ := Prod.mk.inj (pure_eq_ok.mp h)
    exact ⟨none, bind_eq_ok.mpr ⟨none, hentry, rfl⟩, rfl, List.Subset.refl _, id⟩
  | some entry =>
    obtain ⟨component, hcomponent, h⟩ := bind_eq_ok.mp h
    obtain ⟨qualified, hqualified, h⟩ := bind_eq_ok.mp h
    have hjoin : qualified = joinName parent (some component) := by
      cases hq : qualifiedFieldName parent component with
      | error e => exact absurd hqualified (by simp [lift, hq, Except.mapError])
      | ok name =>
        simp only [lift, hq, Except.mapError, Except.ok.injEq] at hqualified
        exact hqualified ▸ qualifiedFieldName_ok hq
    have hpart : partialOf field dictionary = .ok (some component) :=
      bind_eq_ok.mpr ⟨some entry, hentry, bind_eq_ok.mpr ⟨component, hcomponent, rfl⟩⟩
    cases qualified with
    | none =>
      obtain ⟨rfl, rfl⟩ := Prod.mk.inj (pure_eq_ok.mp h)
      exact ⟨some component, hpart, hjoin, List.Subset.refl _, fun _ text htext => by
        exact absurd htext (by simp)⟩
    | some name =>
      obtain ⟨rfl, rfl⟩ := Prod.mk.inj (pure_eq_ok.mp h)
      refine ⟨some component, hpart, hjoin, ?_, fun _ text htext hne => ?_⟩
      · split
        · exact List.Subset.refl _
        · exact List.subset_cons_self _ _
      · obtain rfl := Option.some.inj htext
        rw [if_neg (by simpa using hne)]
        exact List.mem_cons_self

/-- What visiting a field does: it is within the bounds and new, its kids go on the stack,
    and its name is added. -/
theorem visitField_ok {next : PendingField} {s s' : FieldWalk}
    (h : visitField inflate index next s = .ok s') :
    next.depth ≤ maxFormFieldDepth ∧ s.visited.length < maxFormFieldObjects ∧
      next.target ∉ s.visited ∧ s'.visited = next.target :: s.visited ∧
      ∃ part kids, partialName inflate index next.target = .ok part ∧
        fieldKids inflate index next.target = .ok kids ∧
        s'.pending =
          kids.map (fun kid => ⟨kid, joinName next.parentName part, next.depth + 1⟩) ++
            s.pending ∧
        s.names ⊆ s'.names ∧
        (Known s.names next.parentName → Known s'.names (joinName next.parentName part)) := by
  unfold visitField at h
  split at h
  · exact absurd h (by simp [fail])
  next hbounds =>
    simp only [not_or, Nat.not_lt, Nat.not_le] at hbounds
    obtain ⟨hdepth, hvisited, hnew⟩ := hbounds
    obtain ⟨body, hbody, h⟩ := bind_eq_ok.mp h
    obtain ⟨field, hfield, h⟩ := bind_eq_ok.mp h
    obtain ⟨dictionary, hdictionary, h⟩ := bind_eq_ok.mp h
    obtain ⟨⟨own, names⟩, hnames, h⟩ := bind_eq_ok.mp h
    obtain ⟨kidsEntry, hkidsEntry, h⟩ := bind_eq_ok.mp h
    obtain ⟨part, hpart, rfl, hsub, hknown⟩ := fieldNames_ok hnames
    have hread : readField inflate index next.target = .ok (field, dictionary) :=
      bind_eq_ok.mpr ⟨body, hbody, bind_eq_ok.mpr ⟨field, hfield,
        bind_eq_ok.mpr ⟨dictionary, hdictionary, rfl⟩⟩⟩
    have hname : partialName inflate index next.target = .ok part :=
      bind_eq_ok.mpr ⟨_, hread, hpart⟩
    cases kidsEntry with
    | none =>
      have hkids : fieldKids inflate index next.target = .ok [] :=
        bind_eq_ok.mpr ⟨_, hread, bind_eq_ok.mpr ⟨none, hkidsEntry, rfl⟩⟩
      obtain rfl := pure_eq_ok.mp h
      exact ⟨hdepth, hvisited, hnew, rfl, part, [], hname, hkids, rfl, hsub, hknown⟩
    | some entry =>
      obtain ⟨kids, hvalues, h⟩ := bind_eq_ok.mp h
      have hkids : fieldKids inflate index next.target = .ok kids :=
        bind_eq_ok.mpr ⟨_, hread, bind_eq_ok.mpr ⟨some entry, hkidsEntry, hvalues⟩⟩
      split at h
      · exact absurd h (by simp [fail])
      · obtain rfl := pure_eq_ok.mp h
        exact ⟨hdepth, hvisited, hnew, rfl, part, kids, hname, hkids, rfl, hsub, hknown⟩

/-! ## §3. The walk -/

theorem fieldWalkTurn_next {s s' : FieldWalk} (h : fieldWalkTurn inflate index s = .next s') :
    ∃ next pending, s.pending = next :: pending ∧
      visitField inflate index next { s with pending := pending } = .ok s' := by
  unfold fieldWalkTurn at h
  split at h
  · exact absurd h (by simp)
  next next pending hpending =>
    split at h
    next s'' hvisit =>
      injection h with h
      exact ⟨next, pending, hpending, h ▸ hvisit⟩
    · exact absurd h (by simp)

/-- **The walk ends.**  Every turn that goes on visits one more of the objects it may. -/
theorem fieldWalk_isSome (pending : List PendingField) :
    ∃ result, loop (fieldWalkTurn inflate index) (maxFormFieldObjects + 2)
      ⟨pending, [], []⟩ = some result := by
  refine loop_isSome (fun s => maxFormFieldObjects - s.visited.length) (fun s s' h => ?_)
    (by simp only [maxFormFieldObjects, List.length_nil]; omega)
  obtain ⟨next, pending, -, hvisit⟩ := fieldWalkTurn_next h
  obtain ⟨-, hroom, -, hvisited, -⟩ := visitField_ok hvisit
  simp only [hvisited, List.length_cons] at hroom ⊢
  omega

/-- **What a walk that succeeds has visited**: the forest above its stack, each field new
    and within the bounds, and their names. -/
theorem runs_forest {s : FieldWalk} {r : Outcome (List Text)}
    (hrun : Lib.Runs (fieldWalkTurn inflate index) s r) {names : List Text} (hr : r = .ok names)
    (hroom : s.visited.length ≤ maxFormFieldObjects)
    (hknown : ∀ field ∈ s.pending, Known s.names field.parentName) :
    s.names ⊆ names ∧
      ∃ order, Forest (Expands inflate index) s.pending order ∧
        (order.map PendingField.target).Nodup ∧
        (∀ field ∈ order, field.target ∉ s.visited) ∧
        order.length + s.visited.length ≤ maxFormFieldObjects ∧
        ∀ field ∈ order, field.depth ≤ maxFormFieldDepth ∧
          ∃ part, partialName inflate index field.target = .ok part ∧
            Known names (joinName field.parentName part) := by
  induction hrun with
  | @done s r hdone =>
    subst hr
    unfold fieldWalkTurn at hdone
    split at hdone
    next hpending =>
      simp only [Turn.done.injEq, Except.ok.injEq] at hdone
      subst hdone
      refine ⟨List.Subset.refl _, [], ?_, .nil, by simp, by simpa using hroom, by simp⟩
      rw [hpending]
      exact .nil
    · split at hdone
      · exact absurd hdone (by simp)
      · exact absurd hdone (by simp)
  | @next s s' r hturn _ ih =>
    obtain ⟨next, pending, hpending, hvisit⟩ := fieldWalkTurn_next hturn
    obtain ⟨hdepth, hmore, hnew, hvisited, part, kids, hpart, hkids, hstack, hsub, hown⟩ :=
      visitField_ok hvisit
    -- the parents of the stack are known before the turn, and the field itself after it
    have hparent := hknown next (hpending ▸ List.mem_cons_self)
    have hknown' : ∀ field ∈ s'.pending, Known s'.names field.parentName := by
      intro field hfield
      rw [hstack] at hfield
      obtain hfield | hfield := List.mem_append.mp hfield
      · obtain ⟨kid, -, rfl⟩ := List.mem_map.mp hfield
        exact hown hparent
      · have hbefore := hknown field (hpending ▸ List.mem_cons_of_mem next hfield)
        exact fun text htext hne => hsub (hbefore text htext hne)
    obtain ⟨hgrow, order, hforest, hnodup, hfresh, hbound, hfields⟩ :=
      ih hr (by rw [hvisited]; exact hmore) hknown'
    rw [hvisited] at hfresh hbound
    rw [hstack] at hforest
    refine ⟨List.Subset.trans hsub hgrow, next :: order, ?_, ?_, ?_, ?_, ?_⟩
    · exact hpending ▸ .cons ⟨part, kids, hpart, hkids, rfl⟩ hforest
    · refine List.nodup_cons.mpr ⟨fun hmem => ?_, hnodup⟩
      obtain ⟨field, hfield, heq⟩ := List.mem_map.mp hmem
      exact hfresh field hfield (heq ▸ List.mem_cons_self)
    · intro field hfield
      obtain rfl | hfield := List.mem_cons.mp hfield
      · exact hnew
      · exact fun hmem => hfresh field hfield (List.mem_cons_of_mem _ hmem)
    · simp only [List.length_cons] at hbound ⊢
      omega
    · intro field hfield
      obtain rfl | hfield := List.mem_cons.mp hfield
      · exact ⟨hdepth, part, hpart, fun text htext hne => hgrow (hown hparent text htext hne)⟩
      · exact hfields field hfield

/-- A field reached by a path is on the forest above the roots, with the path's depth and
    the name of its parent. -/
theorem FieldAt.reach {roots path : List PdfObjectReference} {name : Option Text}
    (h : FieldAt inflate index roots path name) :
    ∃ field part, Reach (Expands inflate index) (roots.map fun root => ⟨root, some [], 1⟩) field ∧
      path.head? = some field.target ∧ field.depth = path.length ∧
      partialName inflate index field.target = .ok part ∧ name = joinName field.parentName part := by
  induction h with
  | @root target part hmem hname =>
    exact ⟨⟨target, some [], 1⟩, part, .root (List.mem_map.mpr ⟨target, hmem, rfl⟩), rfl, rfl,
      hname, rfl⟩
  | @kid parent target path kids name part _ hkids hmem hname ih =>
    obtain ⟨above, part', hreach, hhead, hdepth, hpart', hjoin⟩ := ih
    obtain rfl := Option.some.inj hhead
    refine ⟨⟨target, joinName above.parentName part', above.depth + 1⟩, part,
      .kid hreach ⟨part', kids, hpart', hkids, rfl⟩ (List.mem_map.mpr ⟨target, hmem, rfl⟩),
      rfl, ?_, hname, by rw [hjoin]⟩
    simp only [hdepth, List.length_cons]

/-- The names and the forest under roots whose walk succeeds. -/
theorem fieldWalk_tree {roots : List PdfObjectReference} {names : List Text}
    (h : loop (fieldWalkTurn inflate index) (maxFormFieldObjects + 2)
      ⟨roots.map fun root => ⟨root, some [], 1⟩, [], []⟩ = some (.ok names)) :
    (∃ fields, FieldTree inflate index roots fields) ∧
      ∀ path name, FieldAt inflate index roots path name → Known names name := by
  obtain ⟨-, order, hforest, hnodup, -, hbound, hfields⟩ :=
    runs_forest (runs_of_loop h) rfl (Nat.zero_le _) (fun field hfield => by
      obtain ⟨root, -, rfl⟩ := List.mem_map.mp hfield
      exact fun text htext hne => absurd (Option.some.inj htext).symm hne)
  have hat : ∀ path name, FieldAt inflate index roots path name →
      path.length ≤ maxFormFieldDepth ∧ Known names name := by
    intro path name hpath
    obtain ⟨field, part, hreach, -, hdepth, hpart, hjoin⟩ := hpath.reach
    obtain ⟨hlimit, part', hpart', hknown⟩ :=
      hfields field (hforest.reach expands_fun hreach)
    obtain rfl := Except.ok.inj (hpart.symm.trans hpart')
    exact ⟨hdepth ▸ hlimit, hjoin ▸ hknown⟩
  refine ⟨⟨order.map PendingField.target, hnodup, ?_, by simpa using hbound, ?_,
    fun path name hpath => (hat path name hpath).1⟩, fun path name hpath => (hat path name hpath).2⟩
  · obtain ⟨pendings, hkids, hperm⟩ := hforest.perm
    refine ⟨pendings.map fun pending => pending.map PendingField.target, ?_, ?_⟩
    · rw [List.forall₂_map_left_iff, List.forall₂_map_right_iff]
      refine hkids.imp fun field pending hexpands => ?_
      obtain ⟨part, kids, -, hfield, rfl⟩ := hexpands
      rw [hfield, List.map_map]
      exact congrArg Except.ok (List.map_id kids).symm
    · have hmap := hperm.map PendingField.target
      rw [List.map_append, List.map_map, List.map_flatten] at hmap
      have hroots : roots.map (PendingField.target ∘ fun root => ⟨root, some [], 1⟩) = roots :=
        List.map_id roots
      rwa [hroots] at hmap
  · intro target htarget
    obtain ⟨field, hfield, rfl⟩ := List.mem_map.mp htarget
    obtain ⟨-, part, hpart, -⟩ := hfields field hfield
    exact ⟨part, hpart⟩

/-- The part of `existing_field_names` behind the form. -/
def formNames (inflate : Bytes → Option Bytes) (index : PdfIndex) (acroform : Bytes) :
    Outcome (List Text) := do
  let acroformDictionary ← asUnreadableForm (lift (PdfDictionary.parse acroform))
  match ← asUnreadableForm (lift (acroformDictionary.entry (ascii "Fields"))) with
  | none => return []
  | some fieldsEntry =>
    let roots ← asUnreadableForm
      (validationReferences inflate index (fieldsEntry.value.of acroform))
    if maxFormFieldObjects < roots.length then fail .unreadableForm
    else
      let pending := roots.map fun root => ⟨root, some [], 1⟩
      (loop (fieldWalkTurn inflate index) (maxFormFieldObjects + 2) ⟨pending, [], []⟩).getD
        (fail .unreadableForm)

theorem formNames_ok {acroform : Bytes} {names : List Text}
    (h : formNames inflate index acroform = .ok names) :
    ∃ roots, formFields inflate index acroform = .ok roots ∧
      loop (fieldWalkTurn inflate index) (maxFormFieldObjects + 2)
        ⟨roots.map fun root => ⟨root, some [], 1⟩, [], []⟩ = some (.ok names) := by
  obtain ⟨dictionary, hdictionary, h⟩ := bind_eq_ok.mp h
  obtain ⟨entry, hentry, h⟩ := bind_eq_ok.mp h
  cases entry with
  | none =>
    obtain rfl := pure_eq_ok.mp h
    exact ⟨[], bind_eq_ok.mpr ⟨_, hdictionary, bind_eq_ok.mpr ⟨none, hentry, rfl⟩⟩, rfl⟩
  | some entry =>
    obtain ⟨roots, hroots, h⟩ := bind_eq_ok.mp h
    refine ⟨roots, bind_eq_ok.mpr ⟨_, hdictionary, bind_eq_ok.mpr ⟨some entry, hentry, hroots⟩⟩, ?_⟩
    split at h
    · exact absurd h (by simp [fail])
    · obtain ⟨result, hresult⟩ := @fieldWalk_isSome inflate index
        (roots.map fun root => ⟨root, some [], 1⟩)
      dsimp only at h
      rw [hresult, Option.getD_some] at h
      rw [hresult, h]

/-- The names of a form that is read are those of a walk from its roots. -/
theorem existingFieldNames_ok {catalog : Bytes} {names : List Text}
    (h : existingFieldNames inflate index catalog = .ok names) :
    ∃ roots, formRoots inflate index catalog = .ok roots ∧
      loop (fieldWalkTurn inflate index) (maxFormFieldObjects + 2)
        ⟨roots.map fun root => ⟨root, some [], 1⟩, [], []⟩ = some (.ok names) := by
  obtain ⟨catalogDictionary, hcatalog, h⟩ := bind_eq_ok.mp h
  obtain ⟨entry, hentry, h⟩ := bind_eq_ok.mp h
  cases entry with
  | none =>
    obtain rfl := pure_eq_ok.mp h
    exact ⟨[], bind_eq_ok.mpr ⟨_, hcatalog, bind_eq_ok.mpr ⟨none, hentry, rfl⟩⟩, rfl⟩
  | some entry =>
    obtain ⟨found, hfound, h⟩ := bind_eq_ok.mp h
    -- the form is the value itself or another object; what follows is the same
    have hform : ∃ acroform, formBody inflate index (entry.value.of catalog) = .ok acroform ∧
        formNames inflate index acroform = .ok names := by
      cases found with
      | some target =>
        obtain ⟨body, hbody, h⟩ := bind_eq_ok.mp h
        obtain ⟨acroform, hacroform, h⟩ := bind_eq_ok.mp h
        exact ⟨acroform, bind_eq_ok.mpr ⟨_, hfound, bind_eq_ok.mpr ⟨body, hbody, hacroform⟩⟩, h⟩
      | none =>
        obtain ⟨acroform, hacroform, h⟩ := bind_eq_ok.mp h
        exact ⟨acroform, bind_eq_ok.mpr ⟨_, hfound, hacroform⟩, h⟩
    obtain ⟨acroform, hbody, hnames⟩ := hform
    obtain ⟨roots, hroots, hwalk⟩ := formNames_ok hnames
    exact ⟨roots, bind_eq_ok.mpr ⟨_, hcatalog, bind_eq_ok.mpr ⟨some entry, hentry,
      bind_eq_ok.mpr ⟨acroform, hbody, hroots⟩⟩⟩, hwalk⟩

/-- **A form that is read** is a bounded forest, and all its names are known. -/
theorem existingFieldNames_tree {catalog : Bytes} {names : List Text}
    (h : existingFieldNames inflate index catalog = .ok names) :
    ∃ roots, formRoots inflate index catalog = .ok roots ∧
      (∃ fields, FieldTree inflate index roots fields) ∧
      ∀ path name, FieldAt inflate index roots path name → Known names name := by
  obtain ⟨roots, hroots, hwalk⟩ := existingFieldNames_ok h
  exact ⟨roots, hroots, fieldWalk_tree hwalk⟩

/-! ## §4. A free name -/

/-- A name with a suffix. -/
def suffixed (base : Text) (suffix : Nat) : Text := base ++ chars "-" ++ Nat.toDigits 10 suffix

theorem suffixed_injective (base : Text) : Function.Injective (suffixed base) := by
  intro m n h
  have hdigits := List.append_cancel_left h
  have hvalue := congrArg (fun digits => Nat.ofDigitChars 10 digits 0) hdigits
  simpa only [Nat.ofDigitChars_ten_toDigits] using hvalue

theorem freeSuffix_none {used : List Text} {base : Text} {count suffix : Nat}
    (h : freeSuffix used base count suffix = none) :
    ∀ i < count, suffixed base (suffix + i) ∈ used := by
  induction count generalizing suffix with
  | zero => intro i hi; exact absurd hi (by omega)
  | succ count ih =>
    simp only [freeSuffix] at h
    split at h
    next hused =>
      intro i hi
      cases i with
      | zero => exact hused
      | succ i =>
        have hlater := ih h i (by omega)
        rwa [show suffix + 1 + i = suffix + (i + 1) by omega] at hlater
    · exact absurd h (by simp)

/-- **There are more suffixes than names.** -/
theorem freeSuffix_isSome (used : List Text) (base : Text) :
    ∃ name, freeSuffix used base (used.dedup.length + 1) 2 = some name := by
  cases h : freeSuffix used base (used.dedup.length + 1) 2 with
  | some name => exact ⟨name, rfl⟩
  | none =>
    have hused := freeSuffix_none h
    let candidates := (List.range (used.dedup.length + 1)).map fun i => suffixed base (2 + i)
    have hnodup : candidates.Nodup := List.nodup_range.map fun i j hij => by
      have := suffixed_injective base hij
      omega
    have hsub : candidates ⊆ used.dedup := by
      intro name hname
      obtain ⟨i, hi, rfl⟩ := List.mem_map.mp hname
      exact List.mem_dedup.mpr (hused i (List.mem_range.mp hi))
    have hlength := (hnodup.subperm hsub).length_le
    simp only [candidates, List.length_map, List.length_range] at hlength
    omega

theorem freeSuffix_some {used : List Text} {base name : Text} {count suffix : Nat}
    (h : freeSuffix used base count suffix = some name) :
    name ∉ used ∧ ∃ i, name = suffixed base i := by
  induction count generalizing suffix with
  | zero => exact absurd h (by simp [freeSuffix])
  | succ count ih =>
    simp only [freeSuffix] at h
    split at h
    · exact ih h
    next hfree =>
      obtain rfl := Option.some.inj h
      exact ⟨hfree, suffix, rfl⟩

/-- The names the writer gives are ASCII. -/
def IsAscii (name : Text) : Prop := ∀ c ∈ name, c.toNat < 128

theorem isAscii_append {first second : Text} (h : IsAscii first) (h' : IsAscii second) :
    IsAscii (first ++ second) := by
  intro c hc
  obtain hc | hc := List.mem_append.mp hc
  · exact h c hc
  · exact h' c hc

theorem isAscii_digits (n : Nat) : IsAscii (Nat.toDigits 10 n) := by
  intro c hc
  have hdigit := Nat.isDigit_of_mem_toDigits (by decide) (by decide) hc
  simp only [Char.isDigit, Bool.and_eq_true, decide_eq_true_eq] at hdigit
  have hle : c.toNat ≤ 57 := hdigit.2
  omega

theorem isAscii_base (kind : Reserved) (number : Nat) : IsAscii (kind.fieldNameBase number) := by
  cases kind
  · exact isAscii_append (by simp [IsAscii, chars]) (isAscii_digits number)
  · exact isAscii_append (by simp [IsAscii, chars]) (isAscii_digits number)

theorem isAscii_suffixed {base : Text} (h : IsAscii base) (suffix : Nat) :
    IsAscii (suffixed base suffix) :=
  isAscii_append (isAscii_append h (by simp [IsAscii, chars])) (isAscii_digits suffix)

/-- The new name is given, ASCII, and none of the names. -/
theorem uniqueFieldName_ok {catalog : Bytes} {names : List Text}
    (h : existingFieldNames inflate index catalog = .ok names) (kind : Reserved) (number : Nat) :
    ∃ name, uniqueFieldName inflate index catalog kind number = .ok name ∧
      name ≠ [] ∧ IsAscii name ∧ name ∉ names := by
  have hbase : kind.fieldNameBase number ≠ [] := by cases kind <;> exact List.cons_ne_nil _ _
  by_cases hfree : kind.fieldNameBase number ∉ names
  · refine ⟨_, bind_eq_ok.mpr ⟨names, h, ?_⟩, hbase, isAscii_base kind number, hfree⟩
    simp only [hfree, not_false_eq_true, if_true, pure_eq_ok]
  · obtain ⟨name, hname⟩ := freeSuffix_isSome names (kind.fieldNameBase number)
    obtain ⟨hnew, suffix, rfl⟩ := freeSuffix_some hname
    refine ⟨_, bind_eq_ok.mpr ⟨names, h, ?_⟩, ?_, isAscii_suffixed (isAscii_base kind number) _,
      hnew⟩
    · simp only [hfree, if_false, hname]
      rfl
    · simp [suffixed, hbase]

/-- **A fresh name.**  The walk over the fields ends.  A form it accepts is a bounded forest
    in which every field is listed once; the new field then has a name, an ASCII one that is
    the fully qualified name of no field. -/
theorem uniqueFieldName_fresh (inflate : Bytes → Option Bytes) (index : PdfIndex)
    (catalog : Bytes) :
    (∀ pending, ∃ result, loop (fieldWalkTurn inflate index) (maxFormFieldObjects + 2)
        ⟨pending, [], []⟩ = some result) ∧
      ∀ names, existingFieldNames inflate index catalog = .ok names →
        ∃ roots, formRoots inflate index catalog = .ok roots ∧
          (∃ fields, FieldTree inflate index roots fields) ∧
          ∀ kind number, ∃ name,
            uniqueFieldName inflate index catalog kind number = .ok name ∧ IsAscii name ∧
              ∀ path fieldName, FieldAt inflate index roots path fieldName →
                fieldName ≠ some name := by
  refine ⟨fieldWalk_isSome, fun names hnames => ?_⟩
  obtain ⟨roots, hroots, htree, hknown⟩ := existingFieldNames_tree hnames
  refine ⟨roots, hroots, htree, fun kind number => ?_⟩
  obtain ⟨name, hname, hne, hascii, hnew⟩ := uniqueFieldName_ok hnames kind number
  refine ⟨name, hname, hascii, fun path fieldName hfield heq => ?_⟩
  exact hnew (hknown path fieldName hfield name heq hne)

end Pdf

end RefineId
