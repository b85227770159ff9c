/-
  RefineId.Lib.Base128 — numbers in base 128, end to end.
  ════════════════════════════════════════════════════════════════════════════

  A number is a string of octets of which all but the last have the high bit set; the lower seven
  bits are its digits, the most significant first.  Numbers written end to end come apart again,
  and a number that does not begin with a zero digit is written in one way only.

  Main results:
    • `numbers_flatten`     : nothing is lost where a string is cut.
    • `numbers_isNumber`    : a string that ends a number is cut into numbers.
    • `value_injective`     : minimal numbers of one value are the same octets.
    • `values_injective`    : so are strings of them.
-/
import Mathlib.Tactic

namespace RefineId.Lib.Base128

/-- Another octet of the number follows. -/
def continues (b : UInt8) : Bool := 128 ≤ b.toNat

/-- The digit of an octet. -/
def digit (b : UInt8) : Nat := b.toNat % 128

/-- The value read so far, carried on over some octets. -/
def valueFrom (acc : Nat) (octets : List UInt8) : Nat :=
  octets.foldl (fun acc b => acc * 128 + digit b) acc

/-- The value of a number. -/
def value (number : List UInt8) : Nat := valueFrom 0 number

/-- The octets are one number. -/
inductive IsNumber : List UInt8 → Prop
  | last {b : UInt8} (h : continues b = false) : IsNumber [b]
  | more {b : UInt8} {rest : List UInt8} (h : continues b = true) (hrest : IsNumber rest) :
      IsNumber (b :: rest)

/-- The number does not begin with a zero digit that another one follows. -/
def Minimal (number : List UInt8) : Prop := number.head? ≠ some 128

instance : DecidablePred Minimal := fun number =>
  inferInstanceAs (Decidable (number.head? ≠ some 128))

/-- The string cut behind every octet that ends a number. -/
def numbers : List UInt8 → List (List UInt8)
  | [] => []
  | b :: rest =>
    if continues b then
      match numbers rest with
      | [] => [[b]]
      | number :: others => (b :: number) :: others
    else [b] :: numbers rest

/-! ## §1. Cutting a string -/

/-- **Nothing is lost** where a string is cut. -/
theorem numbers_flatten (octets : List UInt8) : (numbers octets).flatten = octets := by
  induction octets with
  | nil => rfl
  | cons b rest ih =>
    unfold numbers
    split
    · split
      next hnil =>
        rw [hnil] at ih
        rw [← ih]
        rfl
      next number others hcons =>
        rw [hcons] at ih
        rw [← ih]
        rfl
    · rw [List.flatten_cons, ih]
      rfl

theorem numbers_eq_nil {octets : List UInt8} (h : numbers octets = []) : octets = [] := by
  have hflat := numbers_flatten octets
  rw [h] at hflat
  exact hflat.symm

/-- **A string that ends a number** is cut into numbers. -/
theorem numbers_isNumber {octets : List UInt8}
    (h : ∀ b, octets.getLast? = some b → continues b = false) :
    ∀ number ∈ numbers octets, IsNumber number := by
  induction octets with
  | nil => exact fun number hmem => absurd hmem List.not_mem_nil
  | cons b rest ih =>
    unfold numbers
    split
    next hmore =>
      -- the octet is not the last one, since it does not end a number
      have hne : rest ≠ [] := by
        rintro rfl
        rw [h b rfl] at hmore
        cases hmore
      have hrest := ih fun c hc => h c (by rw [List.getLast?_cons_of_ne_nil hne, hc])
      split
      next hnil => exact absurd (numbers_eq_nil hnil) hne
      next number others hcons =>
        rw [hcons] at hrest
        intro n hn
        obtain rfl | hn := List.mem_cons.mp hn
        · exact .more hmore (hrest number List.mem_cons_self)
        · exact hrest n (List.mem_cons_of_mem _ hn)
    next hlast =>
      intro n hn
      obtain rfl | hn := List.mem_cons.mp hn
      · exact .last (Bool.not_eq_true _ ▸ hlast)
      · refine ih (fun c hc => h c ?_) n hn
        have hne : rest ≠ [] := by
          rintro rfl
          cases hc
        rw [List.getLast?_cons_of_ne_nil hne, hc]

/-! ## §2. Values -/

theorem digit_lt (b : UInt8) : digit b < 128 := Nat.mod_lt _ (by decide)

theorem valueFrom_eq (acc : Nat) (octets : List UInt8) :
    valueFrom acc octets = acc * 128 ^ octets.length + value octets := by
  induction octets generalizing acc with
  | nil => simp [valueFrom, value]
  | cons b rest ih =>
    have hacc : valueFrom acc (b :: rest) = valueFrom (acc * 128 + digit b) rest := rfl
    have hzero : value (b :: rest) = valueFrom (0 * 128 + digit b) rest := rfl
    rw [hacc, hzero, ih, ih (0 * 128 + digit b), List.length_cons, pow_succ]
    ring

theorem value_cons (b : UInt8) (rest : List UInt8) :
    value (b :: rest) = digit b * 128 ^ rest.length + value rest := by
  have hzero : value (b :: rest) = valueFrom (0 * 128 + digit b) rest := rfl
  rw [hzero, valueFrom_eq, Nat.zero_mul, Nat.zero_add]

theorem value_lt (octets : List UInt8) : value octets < 128 ^ octets.length := by
  induction octets with
  | nil => exact Nat.one_pos
  | cons b rest ih =>
    have hdigit := digit_lt b
    rw [value_cons, List.length_cons, pow_succ]
    calc digit b * 128 ^ rest.length + value rest
        < digit b * 128 ^ rest.length + 128 ^ rest.length := by omega
      _ = (digit b + 1) * 128 ^ rest.length := by ring
      _ ≤ 128 * 128 ^ rest.length := Nat.mul_le_mul_right _ hdigit
      _ = 128 ^ rest.length * 128 := Nat.mul_comm _ _

/-- A minimal number of several octets is no smaller than the least of that length. -/
theorem le_value {b : UInt8} {rest : List UInt8} (h : continues b = true)
    (hminimal : Minimal (b :: rest)) : 128 ^ rest.length ≤ value (b :: rest) := by
  have hdigit : 0 < digit b := by
    have hlt := b.toNat_lt
    have hne : b.toNat ≠ 128 := fun heq =>
      hminimal (congrArg some (UInt8.toNat_inj.mp heq))
    simp only [continues, decide_eq_true_eq] at h
    unfold digit
    omega
  rw [value_cons]
  exact (Nat.le_mul_of_pos_left _ hdigit).trans (Nat.le_add_right _ _)

/-- Numbers of one length and one value are the same octets. -/
theorem eq_of_value {m n : List UInt8} (hm : IsNumber m) (hn : IsNumber n)
    (hlength : m.length = n.length) (h : value m = value n) : m = n := by
  have hlast : ∀ {a b : UInt8}, continues a = continues b → digit a = digit b → a = b := by
    intro a b hkind hdigit
    refine UInt8.toNat_inj.mp ?_
    have ha := a.toNat_lt
    have hb := b.toNat_lt
    simp only [continues, decide_eq_decide] at hkind
    unfold digit at hdigit
    omega
  induction hm generalizing n with
  | @last a ha =>
    cases hn with
    | last hb =>
      rw [value_cons, value_cons] at h
      rw [hlast (ha.trans hb.symm) (by simpa using h)]
    | more hb hrest =>
      cases hrest <;> simp at hlength
  | @more a rest ha hrest ih =>
    cases hn with
    | last hb => cases hrest <;> simp at hlength
    | @more b rest' hb hrest' =>
      have hlen : rest.length = rest'.length := Nat.succ.inj hlength
      rw [value_cons, value_cons, hlen] at h
      have hlt := value_lt rest
      have hlt' := value_lt rest'
      rw [hlen] at hlt
      have hpos : 0 < 128 ^ rest'.length := Nat.pow_pos (by decide)
      have hdigit : digit a = digit b := by
        have hdiv := congrArg (· / 128 ^ rest'.length) h
        simp only [Nat.mul_comm _ (128 ^ rest'.length), Nat.mul_add_div hpos,
          Nat.div_eq_of_lt hlt, Nat.div_eq_of_lt hlt', Nat.add_zero] at hdiv
        exact hdiv
      rw [hdigit] at h
      rw [hlast (ha.trans hb.symm) hdigit, ih hrest' hlen (Nat.add_left_cancel h)]

theorem IsNumber.ne_nil {n : List UInt8} (h : IsNumber n) : n ≠ [] := by
  cases h <;> exact List.cons_ne_nil _ _

/-- Of two numbers the longer one is the greater, if it is minimal. -/
theorem value_lt_of_length_lt {m n : List UInt8} (hn : IsNumber n) (hm : IsNumber m)
    (hminimal : Minimal n) (hlength : m.length < n.length) : value m < value n := by
  cases hn with
  | last hb =>
    have hpos := List.length_pos_iff.mpr hm.ne_nil
    rw [List.length_singleton] at hlength
    omega
  | @more b rest hb hrest =>
    have hle : m.length ≤ rest.length := Nat.lt_succ_iff.mp hlength
    calc value m < 128 ^ m.length := value_lt m
      _ ≤ 128 ^ rest.length := Nat.pow_le_pow_right (by decide) hle
      _ ≤ value (b :: rest) := le_value hb hminimal

/-- **A number is written in one way** without a zero digit in front. -/
theorem value_injective {m n : List UInt8} (hm : IsNumber m) (hn : IsNumber n)
    (hminimal : Minimal m) (hminimal' : Minimal n) (h : value m = value n) : m = n := by
  refine eq_of_value hm hn ?_ h
  rcases Nat.lt_trichotomy m.length n.length with hlt | heq | hgt
  · exact absurd h (value_lt_of_length_lt hn hm hminimal' hlt).ne
  · exact heq
  · exact absurd h.symm (value_lt_of_length_lt hm hn hminimal hgt).ne

/-- **Strings of minimal numbers** with the same values are the same. -/
theorem values_injective {octets others : List UInt8}
    (hnumbers : ∀ n ∈ numbers octets, IsNumber n ∧ Minimal n)
    (hothers : ∀ n ∈ numbers others, IsNumber n ∧ Minimal n)
    (h : (numbers octets).map value = (numbers others).map value) : octets = others := by
  have hsame : ∀ {ms ns : List (List UInt8)}, (∀ n ∈ ms, IsNumber n ∧ Minimal n) →
      (∀ n ∈ ns, IsNumber n ∧ Minimal n) → ms.map value = ns.map value → ms = ns := by
    intro ms
    induction ms with
    | nil =>
      intro ns _ _ hmap
      exact (List.map_eq_nil_iff.mp hmap.symm).symm
    | cons m ms ih =>
      intro ns hms hns hmap
      cases ns with
      | nil => cases hmap
      | cons n ns =>
        obtain ⟨hvalue, hrest⟩ := List.cons.inj hmap
        obtain ⟨hm, hminimal⟩ := hms m List.mem_cons_self
        obtain ⟨hn, hminimal'⟩ := hns n List.mem_cons_self
        rw [value_injective hm hn hminimal hminimal' hvalue,
          ih (fun x hx => hms x (List.mem_cons_of_mem _ hx))
            (fun x hx => hns x (List.mem_cons_of_mem _ hx)) hrest]
  rw [← numbers_flatten octets, hsame hnumbers hothers h, numbers_flatten]

end RefineId.Lib.Base128
