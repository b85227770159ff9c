/-
  RefineId.Lib.Reader — front-to-back readers and the octets they consume.
  ════════════════════════════════════════════════════════════════════════════

  A reader takes items off the front of its input and may fail.  Two questions are asked
  of one: does it read back what a writer wrote, and does it accept nothing else.  Both
  are one equivalence: `Reads r W` says that `r` returns `a` and leaves `rest` exactly on
  the inputs `bs ++ rest` with `W a bs`.  Sequencing readers sequences the relations, and
  no encoding of such a reader is a proper beginning of another.

  Main results:
    • `Reads.bind`, `reads_pure`, `reads_lift`, `reads_next`, `reads_take` : the rules.
    • `Reads.unique`   : two readings of one input agree.
    • `Reads.complete` : a reader run to the end of its input accepts exactly `W`.
    • `Reads.extended`, `Reads.truncated` : nothing longer or shorter is accepted.
    • `reader_bind_eq_error`, `Faults.bind` : which errors a reader can end with.
-/
import RefineId.Lib.Outcome

namespace RefineId.Lib

variable {ε σ α β : Type}

/-- A reader over a list of items. -/
abbrev Reader (ε σ : Type) := StateT (List σ) (Except ε)

namespace Reader

/-- The next item, or `e` at the end of the input. -/
def next (e : ε) : Reader ε σ σ
  | [] => .error e
  | item :: rest => .ok (item, rest)

/-- The next `count` items, or `e` when fewer are left. -/
def take (e : ε) (count : Nat) : Reader ε σ (List σ) := fun input =>
  if input.length < count then .error e else .ok (input.take count, input.drop count)

/-- A step that reads nothing. -/
def lift (x : Except ε α) : Reader ε σ α := fun input => x.map fun a => (a, input)

/-- The reader on a whole input: `e` when it leaves anything. -/
def whole (e : ε) (r : Reader ε σ α) (input : List σ) : Except ε α := do
  let (a, rest) ← r input
  if rest.isEmpty then .ok a else .error e

end Reader

/-- `r` returns `a` exactly on the inputs that begin with items related to `a`. -/
def Reads (r : Reader ε σ α) (W : α → List σ → Prop) : Prop :=
  ∀ input a rest, r input = .ok (a, rest) ↔ ∃ items, W a items ∧ input = items ++ rest

/-! ## §1. Rules -/

theorem reads_pure (a : α) : Reads (pure a : Reader ε σ α) fun b items => b = a ∧ items = [] := by
  intro input b rest
  have hrun : (pure a : Reader ε σ α) input = .ok (a, input) := rfl
  constructor
  · intro h
    rw [hrun, Except.ok.injEq, Prod.mk.injEq] at h
    obtain ⟨rfl, rfl⟩ := h
    exact ⟨[], ⟨rfl, rfl⟩, rfl⟩
  · intro hx
    obtain ⟨items, ⟨rfl, rfl⟩, rfl⟩ := hx
    rfl

theorem Reads.bind {r : Reader ε σ α} {f : α → Reader ε σ β} {W : α → List σ → Prop}
    {V : α → β → List σ → Prop} (hr : Reads r W) (hf : ∀ a, Reads (f a) (V a)) :
    Reads (r >>= f) fun b items =>
      ∃ a front back, W a front ∧ V a b back ∧ items = front ++ back := by
  intro input b rest
  have hrun : (r >>= f) input = (r input >>= fun p => f p.1 p.2) := rfl
  rw [hrun, bind_eq_ok]
  constructor
  · intro hx
    obtain ⟨⟨a, mid⟩, ha, hb⟩ := hx
    obtain ⟨front, hfront, rfl⟩ := (hr _ _ _).mp ha
    obtain ⟨back, hback, rfl⟩ := (hf a _ _ _).mp hb
    exact ⟨front ++ back, ⟨a, front, back, hfront, hback, rfl⟩, by rw [List.append_assoc]⟩
  · intro hx
    obtain ⟨items, ⟨a, front, back, hfront, hback, rfl⟩, rfl⟩ := hx
    refine ⟨(a, back ++ rest), (hr _ _ _).mpr ⟨front, hfront, by rw [List.append_assoc]⟩, ?_⟩
    exact (hf a _ _ _).mpr ⟨back, hback, rfl⟩

theorem reads_lift {x : Except ε α} :
    Reads (Reader.lift x : Reader ε σ α) fun a items => x = .ok a ∧ items = [] := by
  intro input a rest
  unfold Reader.lift
  cases x with
  | error e => simp [Except.map]
  | ok b =>
    constructor
    · intro h
      obtain ⟨rfl, rfl⟩ : b = a ∧ input = rest := by simpa [Except.map] using h
      exact ⟨[], ⟨rfl, rfl⟩, rfl⟩
    · intro hx
      obtain ⟨items, ⟨hb, rfl⟩, rfl⟩ := hx
      injection hb with hb
      rw [hb]
      rfl

theorem reads_next (e : ε) : Reads (Reader.next e : Reader ε σ σ) fun a items => items = [a] := by
  intro input a rest
  cases input with
  | nil => simp [Reader.next]
  | cons b bs =>
    constructor
    · intro h
      obtain ⟨rfl, rfl⟩ : b = a ∧ bs = rest := by simpa [Reader.next] using h
      exact ⟨[b], rfl, rfl⟩
    · intro hx
      obtain ⟨items, rfl, h⟩ := hx
      obtain ⟨rfl, rfl⟩ := List.cons.inj h
      rfl

theorem reads_take (e : ε) (count : Nat) :
    Reads (Reader.take e count : Reader ε σ (List σ)) fun a items =>
      items = a ∧ a.length = count := by
  intro input a rest
  unfold Reader.take
  split
  next hshort =>
    constructor
    · intro h
      cases h
    · intro hx
      obtain ⟨items, ⟨rfl, hlen⟩, rfl⟩ := hx
      rw [List.length_append] at hshort
      omega
  next hlong =>
    constructor
    · intro h
      obtain ⟨rfl, rfl⟩ : input.take count = a ∧ input.drop count = rest := by simpa using h
      exact ⟨_, ⟨rfl, by rw [List.length_take]; omega⟩, (List.take_append_drop _ _).symm⟩
    · intro hx
      obtain ⟨items, ⟨rfl, hlen⟩, rfl⟩ := hx
      rw [List.take_left' hlen, List.drop_left' hlen]

/-- The relation may be rewritten. -/
theorem Reads.congr {r : Reader ε σ α} {W V : α → List σ → Prop} (h : Reads r W)
    (heq : ∀ a items, W a items ↔ V a items) : Reads r V := by
  intro input a rest
  rw [h input a rest]
  exact exists_congr fun items => and_congr_left fun _ => heq a items

/-! ## §2. Whole inputs -/

section
variable {r : Reader ε σ α} {W : α → List σ → Prop} (h : Reads r W)
include h

/-- **Two readings of one input agree**: on the value and on what it took. -/
theorem Reads.unique {a a' : α} {items items' rest rest' : List σ} (ha : W a items)
    (ha' : W a' items') (heq : items ++ rest = items' ++ rest') :
    a = a' ∧ items = items' ∧ rest = rest' := by
  have hread : r (items ++ rest) = .ok (a, rest) := (h _ _ _).mpr ⟨items, ha, rfl⟩
  have hread' : r (items ++ rest) = .ok (a', rest') := (h _ _ _).mpr ⟨items', ha', heq⟩
  rw [hread] at hread'
  injection hread' with hpair
  obtain ⟨rfl, rfl⟩ := Prod.mk.inj hpair
  exact ⟨rfl, List.append_cancel_right heq, rfl⟩

/-- **A reader run to the end accepts exactly its relation.** -/
theorem Reads.complete (e : ε) {input : List σ} {a : α} :
    r.whole e input = .ok a ↔ W a input := by
  unfold Reader.whole
  rw [bind_eq_ok]
  constructor
  · intro hx
    obtain ⟨⟨b, rest⟩, hread, hend⟩ := hx
    dsimp only at hend
    split at hend
    next hempty =>
      injection hend with hb
      obtain ⟨items, hitems, hinput⟩ := (h _ _ _).mp hread
      rw [List.isEmpty_iff.mp hempty, List.append_nil] at hinput
      rw [hinput, ← hb]
      exact hitems
    · cases hend
  · intro hitems
    exact ⟨(a, []), (h _ _ _).mpr ⟨input, hitems, by rw [List.append_nil]⟩, rfl⟩

/-- **Nothing longer is accepted.** -/
theorem Reads.extended {a a' : α} {items rest : List σ} (ha : W a items)
    (ha' : W a' (items ++ rest)) : rest = [] := by
  have heq : items ++ rest = (items ++ rest) ++ [] := by rw [List.append_nil]
  exact (h.unique ha ha' heq).2.2

/-- **Nothing shorter is accepted.** -/
theorem Reads.truncated {a a' : α} {items : List σ} {count : Nat} (ha : W a items)
    (ha' : W a' (items.take count)) : items.length ≤ count := by
  have hdrop : items.drop count = [] := by
    apply h.extended ha'
    rwa [List.take_append_drop]
  exact List.drop_eq_nil_iff.mp hdrop

end

/-! ## §3. Errors -/

theorem reader_bind_eq_error {r : Reader ε σ α} {f : α → Reader ε σ β} {input : List σ} {e : ε} :
    (r >>= f) input = .error e ↔
      r input = .error e ∨ ∃ a rest, r input = .ok (a, rest) ∧ f a rest = .error e := by
  have hrun : (r >>= f) input = (r input >>= fun p => f p.1 p.2) := rfl
  rw [hrun]
  cases hr : r input with
  | error e' => simp [bind, Except.bind]
  | ok p =>
    obtain ⟨a, rest⟩ := p
    simp [bind, Except.bind]

theorem reader_lift_eq_error {x : Except ε α} {input : List σ} {e : ε} :
    (Reader.lift x : Reader ε σ α) input = .error e ↔ x = .error e := by
  unfold Reader.lift
  cases x <;> simp [Except.map]

/-- The errors of a reader on a whole input are its own, or that it left something. -/
theorem reader_whole_eq_error {r : Reader ε σ α} {e₀ e : ε} {input : List σ} :
    r.whole e₀ input = .error e ↔
      r input = .error e ∨ ∃ a rest, r input = .ok (a, rest) ∧ rest ≠ [] ∧ e = e₀ := by
  unfold Reader.whole
  cases hr : r input with
  | error e' => simp [bind, Except.bind]
  | ok p =>
    obtain ⟨a, rest⟩ := p
    cases rest with
    | nil => simp [bind, Except.bind]
    | cons b bs => simp [bind, Except.bind, eq_comm]

/-- Every error of the reader meets `P`. -/
def Faults (r : Reader ε σ α) (P : ε → Prop) : Prop := ∀ input e, r input = .error e → P e

section
variable {P : ε → Prop}

theorem faults_pure (a : α) : Faults (pure a : Reader ε σ α) P := by
  intro input e h
  cases h

theorem faults_lift {x : Except ε α} (h : ∀ e, x = .error e → P e) :
    Faults (Reader.lift x : Reader ε σ α) P := fun _ e he => h e (reader_lift_eq_error.mp he)

theorem faults_next {e : ε} (h : P e) : Faults (Reader.next e : Reader ε σ σ) P := by
  intro input e' he
  cases input with
  | nil =>
    injection he with he
    rwa [← he]
  | cons b bs => cases he

theorem faults_take {e : ε} (h : P e) (count : Nat) :
    Faults (Reader.take e count : Reader ε σ (List σ)) P := by
  intro input e' he
  unfold Reader.take at he
  split at he
  · injection he with he
    rwa [← he]
  · cases he

theorem Faults.bind {r : Reader ε σ α} {f : α → Reader ε σ β} (hr : Faults r P)
    (hf : ∀ a, Faults (f a) P) : Faults (r >>= f) P := by
  intro input e he
  rcases reader_bind_eq_error.mp he with h | ⟨a, rest, _, h⟩
  · exact hr input e h
  · exact hf a rest e h

end

end RefineId.Lib
