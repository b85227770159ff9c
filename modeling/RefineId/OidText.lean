/-
  RefineId.OidText — object identifiers in dotted form.
  ════════════════════════════════════════════════════════════════════════════

  Two renderers of the content octets: `Display for Oid` of
  `crates/refineid-lib-core/src/oid.rs`, which adds up an arc in 128 bits, and
  `Certificate::oid_dot_notation` of `x509.rs`, which does it in 32 bits and wraps.  Both take the
  first octet for the first two arcs.

  Main results:
    • `printArcs_numbers`       : the loop prints every subidentifier, modulo its width.
    • `dottedForm_injective`    : the dotted form tells the arcs.
    • `display_dotted`          : the first renderer, on a first subidentifier of one octet.
    • `oidDotNotation_dotted`   : the second one, on a first subidentifier below 120.
    • `renderers_dotted`        : what both say of an identifier, and where they agree.
-/
import RefineId.Lib.Base128
import RefineId.Lib.Utf8
import RefineId.Oid

namespace RefineId

open Lib Base128
open Lib.Text (decimal)

namespace Oid

/-! ## §1. The renderers -/

/-- The loop over the octets behind the first, with an accumulator of `width` bits. -/
def printArcs (width : Nat) (acc : Nat) : Bytes → Text
  | [] => []
  | b :: rest =>
    -- `acc.wrapping_shl(7) | u128::from(byte & 0x7F)`
    let acc := (acc * 128 + b.toNat % 128) % 2 ^ width
    if b.toNat < 128 then '.' :: decimal acc ++ printArcs width 0 rest
    else printArcs width acc rest

/-- `Display for Oid`. -/
def display : Bytes → Text
  | [] => chars "(empty-oid)"
  | first :: rest =>
    let arc1Raw := first.toNat / 40
    let arc2Raw := first.toNat % 40
    let (arc1, arc2) := if 2 < arc1Raw then (2, first.toNat - 80) else (arc1Raw, arc2Raw)
    decimal arc1 ++ '.' :: decimal arc2 ++ printArcs 128 0 rest

/-- `Certificate::oid_dot_notation`. -/
def oidDotNotation : Bytes → Text
  | [] => []
  | first :: rest =>
    decimal (first.toNat / 40) ++ '.' :: decimal (first.toNat % 40) ++ printArcs 32 0 rest

/-! ## §2. The dotted form -/

/-- The subidentifiers that content octets hold. -/
def subidentifiers (content : Bytes) : List Nat := (numbers content).map value

/-- The arcs: the first subidentifier stands for two, of which the first is 0, 1 or 2. -/
def arcs : List Nat → List Nat
  | [] => []
  | first :: others =>
    if first < 40 then 0 :: first :: others
    else if first < 80 then 1 :: (first - 40) :: others
    else 2 :: (first - 80) :: others

/-- Numbers with dots between them. -/
def dottedForm : List Nat → Text
  | [] => []
  | n :: others => decimal n ++ others.flatMap fun m => '.' :: decimal m

/-- Content that `Oid::new` accepts, of minimal subidentifiers below 2¹²⁸. -/
structure Canonical (content : Bytes) : Prop where
  accepted : wellFormed content = true
  minimal : ∀ number ∈ numbers content, Minimal number
  bounded : ∀ n ∈ subidentifiers content, n < 2 ^ 128

/-- The first subidentifier. -/
def firstSubidentifier (content : Bytes) : Nat := (subidentifiers content).headD 0

theorem decimal_injective {m n : Nat} (h : decimal m = decimal n) : m = n := by
  have hvalue := congrArg (fun digits => Nat.ofDigitChars 10 digits 0) h
  simpa only [decimal, Nat.ofDigitChars_ten_toDigits] using hvalue

theorem decimal_no_dot (n : Nat) : '.' ∉ decimal n := by
  intro hmem
  have hdigit := Nat.isDigit_of_mem_toDigits (by decide) (by decide) hmem
  exact absurd hdigit (by decide)

/-- The first of two texts ends at the dot, or where both end. -/
theorem decimal_append {m n : Nat} {rest rest' : Text} (hrest : rest = [] ∨ rest.head? = some '.')
    (hrest' : rest' = [] ∨ rest'.head? = some '.')
    (h : decimal m ++ rest = decimal n ++ rest') : m = n ∧ rest = rest' := by
  have hcut : ∀ (k : Nat) {text : Text}, text = [] ∨ text.head? = some '.' →
      (decimal k ++ text).takeWhile (· ≠ '.') = decimal k := by
    intro k text htext
    have hdigits : ∀ c ∈ decimal k, decide (c ≠ '.') = true := by
      intro c hc
      rw [decide_eq_true_eq]
      rintro rfl
      exact decimal_no_dot k hc
    rw [List.takeWhile_append_of_pos hdigits]
    obtain rfl | hdot := htext
    · exact List.append_nil _
    · cases text with
      | nil => cases hdot
      | cons c text =>
        obtain rfl := Option.some.inj hdot
        exact List.append_nil _
  have hsame : decimal m = decimal n := by
    rw [← hcut m hrest, h, hcut n hrest']
  refine ⟨decimal_injective hsame, ?_⟩
  rw [hsame] at h
  exact List.append_cancel_left h

/-- **The dotted form tells the arcs.** -/
theorem dottedForm_injective {ms ns : List Nat} (hms : ms ≠ []) (hns : ns ≠ [])
    (h : dottedForm ms = dottedForm ns) : ms = ns := by
  have hhead : ∀ others : List Nat, (others.flatMap fun m => '.' :: decimal m) = [] ∨
      (others.flatMap fun m => '.' :: decimal m).head? = some '.' := by
    intro others
    cases others with
    | nil => exact .inl rfl
    | cons n others => exact .inr rfl
  have htail : ∀ {xs ys : List Nat}, (xs.flatMap fun m => '.' :: decimal m) =
      (ys.flatMap fun m => '.' :: decimal m) → xs = ys := by
    intro xs
    induction xs with
    | nil =>
      intro ys hys
      cases ys with
      | nil => rfl
      | cons y ys => cases hys
    | cons x xs ih =>
      intro ys hys
      cases ys with
      | nil => cases hys
      | cons y ys =>
        rw [List.flatMap_cons, List.flatMap_cons, List.cons_append, List.cons_append] at hys
        obtain ⟨rfl, hrest⟩ := decimal_append (hhead xs) (hhead ys) (List.cons.inj hys).2
        rw [ih hrest]
  cases ms with
  | nil => exact absurd rfl hms
  | cons m ms =>
    cases ns with
    | nil => exact absurd rfl hns
    | cons n ns =>
      obtain ⟨rfl, hrest⟩ := decimal_append (hhead ms) (hhead ns) h
      rw [htail hrest]

theorem arcs_injective {ms ns : List Nat} (hms : ms ≠ []) (hns : ns ≠ []) (h : arcs ms = arcs ns) :
    ms = ns := by
  cases ms with
  | nil => exact absurd rfl hms
  | cons m ms =>
    cases ns with
    | nil => exact absurd rfl hns
    | cons n ns =>
      have hparts : m = n ∧ ms = ns := by
        simp only [arcs] at h
        split_ifs at h <;> simp only [List.cons.injEq] at h <;> exact ⟨by omega, h.2.2⟩
      rw [hparts.1, hparts.2]

theorem arcs_ne_nil {ms : List Nat} (hms : ms ≠ []) : arcs ms ≠ [] := by
  cases ms with
  | nil => exact absurd rfl hms
  | cons m ms =>
    simp only [arcs]
    split_ifs <;> exact List.cons_ne_nil _ _

/-! ## §3. The loop -/

/-- One subidentifier, whatever has been added up before it. -/
theorem printArcs_number {width total : Nat} {number : Bytes} (h : IsNumber number) (rest : Bytes) :
    printArcs width (total % 2 ^ width) (number ++ rest) =
      '.' :: decimal (valueFrom total number % 2 ^ width) ++ printArcs width 0 rest := by
  have hstep : ∀ (total : Nat) (b : UInt8), (total % 2 ^ width * 128 + b.toNat % 128) % 2 ^ width =
      (total * 128 + digit b) % 2 ^ width := by
    intro total b
    rw [digit, Nat.add_mod, Nat.mod_mul_mod, ← Nat.add_mod]
  induction h generalizing total with
  | @last b hb =>
    have hlow : b.toNat < 128 := by
      simpa [continues] using hb
    show printArcs width _ (b :: rest) = _
    rw [printArcs, if_pos hlow, hstep]
    rfl
  | @more b number hb hnumber ih =>
    have hhigh : ¬ b.toNat < 128 := by
      simpa [continues] using hb
    show printArcs width _ (b :: (number ++ rest)) = _
    rw [printArcs, if_neg hhigh, hstep, ih]
    rfl

/-- **The loop prints every subidentifier**, modulo its width. -/
theorem printArcs_numbers {width : Nat} {ns : List Bytes} (h : ∀ n ∈ ns, IsNumber n) :
    printArcs width 0 ns.flatten =
      (ns.map value).flatMap fun v => '.' :: decimal (v % 2 ^ width) := by
  induction ns with
  | nil => rfl
  | cons n ns ih =>
    have hn := @printArcs_number width 0 n (h n List.mem_cons_self) ns.flatten
    rw [Nat.zero_mod] at hn
    rw [List.flatten_cons, hn, ih fun x hx => h x (List.mem_cons_of_mem _ hx), List.map_cons,
      List.flatMap_cons]
    rfl

/-! ## §4. Both renderers -/

/-- Every arc behind the first two, as 32 bits hold it. -/
def wrapped (ns : List Nat) : List Nat := ns.take 2 ++ (ns.drop 2).map fun n => n % 2 ^ 32

/-- The subidentifiers that the second renderer holds in 32 bits, and splits in 40s. -/
structure Narrow (content : Bytes) : Prop where
  first : firstSubidentifier content < 120
  others : ∀ n ∈ (subidentifiers content).tail, n < 2 ^ 32

variable {content other : Bytes}

theorem Canonical.numbers (h : Canonical content) :
    ∀ number ∈ numbers content, IsNumber number ∧ Minimal number := by
  intro number hmem
  refine ⟨numbers_isNumber (fun b hb => ?_) number hmem, h.minimal number hmem⟩
  have haccepted := h.accepted
  simp only [wellFormed, hb, decide_eq_true_eq, UInt8.lt_iff_toNat_lt] at haccepted
  have hlow : b.toNat < 128 := haccepted
  simpa [continues] using hlow

/-- **A first subidentifier of one octet** is that octet. -/
theorem Canonical.firstOctet (h : Canonical content) (hfirst : firstSubidentifier content < 128) :
    ∃ first rest, content = first :: rest ∧ firstSubidentifier content = first.toNat ∧
      subidentifiers content = first.toNat :: subidentifiers rest ∧
      ∀ number ∈ Base128.numbers rest, IsNumber number := by
  cases content with
  | nil => exact absurd h.accepted (by decide)
  | cons first rest =>
    have hnumbers := h.numbers
    have hone : continues first = false := by
      -- more octets would make the first subidentifier too large
      by_contra hmore
      rw [Bool.not_eq_false] at hmore
      obtain ⟨number, others, hcons, hhead⟩ : ∃ number others,
          Base128.numbers (first :: rest) = (first :: number) :: others ∧
            IsNumber (first :: number) := by
        unfold Base128.numbers at hnumbers ⊢
        rw [if_pos hmore] at hnumbers ⊢
        split at hnumbers
        next => exact ⟨_, _, rfl, (hnumbers _ List.mem_cons_self).1⟩
        next => exact ⟨_, _, rfl, (hnumbers _ List.mem_cons_self).1⟩
      have hlong : number ≠ [] := by
        rintro rfl
        cases hhead with
        | last hlast =>
          rw [hmore] at hlast
          cases hlast
        | more _ hrest => cases hrest
      have hminimal : Minimal (first :: number) :=
        h.minimal _ (by rw [hcons]; exact List.mem_cons_self)
      have hle := le_value hmore hminimal
      have hpow : 128 ^ 1 ≤ 128 ^ number.length :=
        Nat.pow_le_pow_right (by decide) (List.length_pos_iff.mpr hlong)
      have hvalue : firstSubidentifier (first :: rest) = value (first :: number) := by
        rw [firstSubidentifier, subidentifiers, hcons]
        rfl
      omega
    have hcons : Base128.numbers (first :: rest) = [first] :: Base128.numbers rest := by
      rw [Base128.numbers, hone]
      rfl
    have hlow : first.toNat < 128 := by simpa [continues] using hone
    have hvalue : value [first] = first.toNat := by
      rw [value_cons, digit, Nat.mod_eq_of_lt hlow]
      simp [value, valueFrom]
    have hsub : subidentifiers (first :: rest) = first.toNat :: subidentifiers rest := by
      rw [subidentifiers, hcons, List.map_cons, hvalue]
      rfl
    refine ⟨first, rest, rfl, ?_, hsub, fun number hmem => ?_⟩
    · rw [firstSubidentifier, hsub]
      rfl
    · exact (hnumbers number (by rw [hcons]; exact List.mem_cons_of_mem _ hmem)).1

theorem printArcs_subidentifiers {width : Nat} {rest : Bytes}
    (h : ∀ number ∈ numbers rest, IsNumber number) :
    printArcs width 0 rest =
      (subidentifiers rest).flatMap fun v => '.' :: decimal (v % 2 ^ width) := by
  have hprint := @printArcs_numbers width _ h
  rw [numbers_flatten] at hprint
  exact hprint

theorem flatMap_mod {width : Nat} {ns : List Nat} (h : ∀ n ∈ ns, n < 2 ^ width) :
    (ns.flatMap fun v => '.' :: decimal (v % 2 ^ width)) = ns.flatMap fun v => '.' :: decimal v := by
  rw [List.flatMap_congr]
  intro v hv
  rw [Nat.mod_eq_of_lt (h v hv)]

/-- **The first renderer**, on a first subidentifier of one octet. -/
theorem display_dotted (h : Canonical content) (hfirst : firstSubidentifier content < 128) :
    display content = dottedForm (arcs (subidentifiers content)) := by
  have hbounded := h.bounded
  obtain ⟨first, rest, rfl, hvalue, hsub, hrest⟩ := h.firstOctet hfirst
  rw [hsub] at hbounded
  have hloop : printArcs 128 0 rest = (subidentifiers rest).flatMap fun v => '.' :: decimal v := by
    rw [printArcs_subidentifiers hrest, flatMap_mod]
    exact fun n hn => hbounded n (List.mem_cons_of_mem _ hn)
  rw [display, hloop, hsub, arcs]
  by_cases hzero : first.toNat < 40
  · rw [if_pos hzero, if_neg (by omega), Nat.div_eq_of_lt hzero, Nat.mod_eq_of_lt hzero]
    rfl
  · by_cases hone : first.toNat < 80
    · have hquotient : first.toNat / 40 = 1 := by omega
      have hremainder : first.toNat % 40 = first.toNat - 40 := by omega
      rw [if_neg hzero, if_pos hone, if_neg (by omega), hquotient, hremainder]
      rfl
    · rw [if_neg hzero, if_neg hone]
      by_cases hclamped : 2 < first.toNat / 40
      · rw [if_pos hclamped]
        rfl
      · have hquotient : first.toNat / 40 = 2 := by omega
        have hremainder : first.toNat % 40 = first.toNat - 80 := by omega
        rw [if_neg hclamped, hquotient, hremainder]
        rfl

/-- **The second renderer**, on a first subidentifier below 120: it wraps. -/
theorem oidDotNotation_dotted (h : Canonical content) (hfirst : firstSubidentifier content < 120) :
    oidDotNotation content = dottedForm (wrapped (arcs (subidentifiers content))) := by
  obtain ⟨first, rest, rfl, hvalue, hsub, hrest⟩ := h.firstOctet (by omega)
  rw [hvalue] at hfirst
  have hloop : printArcs 32 0 rest =
      ((subidentifiers rest).map fun n => n % 2 ^ 32).flatMap fun v => '.' :: decimal v := by
    rw [printArcs_subidentifiers hrest, List.flatMap_map]
  rw [oidDotNotation, hloop, hsub, arcs]
  by_cases hzero : first.toNat < 40
  · rw [if_pos hzero, Nat.div_eq_of_lt hzero, Nat.mod_eq_of_lt hzero]
    rfl
  · by_cases hone : first.toNat < 80
    · have hquotient : first.toNat / 40 = 1 := by omega
      have hremainder : first.toNat % 40 = first.toNat - 40 := by omega
      rw [if_neg hzero, if_pos hone, hquotient, hremainder]
      rfl
    · have hquotient : first.toNat / 40 = 2 := by omega
      have hremainder : first.toNat % 40 = first.toNat - 80 := by omega
      rw [if_neg hzero, if_neg hone, hquotient, hremainder]
      rfl

theorem Canonical.subidentifiers_ne_nil (h : Canonical content) : subidentifiers content ≠ [] := by
  intro hnil
  have hempty := numbers_eq_nil (List.map_eq_nil_iff.mp hnil)
  subst hempty
  exact absurd h.accepted (by decide)

/-- The subidentifiers behind the first are the arcs behind the first two. -/
theorem arcs_drop (ns : List Nat) : (arcs ns).drop 2 = ns.tail := by
  cases ns with
  | nil => rfl
  | cons n ns =>
    simp only [arcs]
    split_ifs <;> rfl

theorem wrapped_eq_iff :
    wrapped (arcs (subidentifiers content)) = arcs (subidentifiers content) ↔
      ∀ n ∈ (subidentifiers content).tail, n < 2 ^ 32 := by
  have hsplit : arcs (subidentifiers content) = (arcs (subidentifiers content)).take 2 ++
      (arcs (subidentifiers content)).drop 2 := (List.take_append_drop 2 _).symm
  rw [wrapped, ← arcs_drop]
  nth_rewrite 3 [hsplit]
  rw [List.append_cancel_left_eq]
  have hself := List.map_inj_left (l := (arcs (subidentifiers content)).drop 2)
    (f := fun n => n % 2 ^ 32) (g := id)
  rw [List.map_id] at hself
  rw [hself]
  constructor
  · intro hall n hn
    have hmod : n % 2 ^ 32 = n := hall n hn
    rw [← hmod]
    exact Nat.mod_lt _ (by decide)
  · intro hall n hn
    exact Nat.mod_eq_of_lt (hall n hn)

/-- **Two identifiers of one dotted form are the same.** -/
theorem eq_of_dottedForm (h : Canonical content) (h' : Canonical other)
    (hsame : dottedForm (arcs (subidentifiers content)) =
      dottedForm (arcs (subidentifiers other))) : content = other := by
  have harcs := dottedForm_injective (arcs_ne_nil h.subidentifiers_ne_nil)
    (arcs_ne_nil h'.subidentifiers_ne_nil) hsame
  have hsub := arcs_injective h.subidentifiers_ne_nil h'.subidentifiers_ne_nil harcs
  exact values_injective h.numbers h'.numbers hsub

/-- The second renderer where it does not wrap. -/
theorem Narrow.dotted (hnarrow : Narrow content) (h : Canonical content) :
    oidDotNotation content = dottedForm (arcs (subidentifiers content)) := by
  rw [oidDotNotation_dotted h hnarrow.first, wrapped_eq_iff.mpr hnarrow.others]

/-- **What the renderers say of an identifier.**  The first prints the dotted form where the first
    subidentifier is one octet, and then tells different identifiers apart.  The second prints it
    with the arcs behind the first two modulo 2³² where the first subidentifier is below 120; the
    two agree there exactly if no arc is wrapped, and then it tells them apart too. -/
theorem renderers_dotted (h : Canonical content) :
    (firstSubidentifier content < 128 →
      display content = dottedForm (arcs (subidentifiers content))) ∧
    (firstSubidentifier content < 120 →
      oidDotNotation content = dottedForm (wrapped (arcs (subidentifiers content))) ∧
      (display content = oidDotNotation content ↔
        ∀ n ∈ (subidentifiers content).tail, n < 2 ^ 32)) ∧
    ∀ other, Canonical other →
      (firstSubidentifier content < 128 → firstSubidentifier other < 128 →
        display content = display other → content = other) ∧
      (Narrow content → Narrow other →
        oidDotNotation content = oidDotNotation other → content = other) := by
  refine ⟨display_dotted h, fun hfirst => ⟨oidDotNotation_dotted h hfirst, ?_⟩,
    fun other h' => ⟨fun hfirst hfirst' hsame => ?_, fun hnarrow hnarrow' hsame => ?_⟩⟩
  · rw [display_dotted h (by omega), oidDotNotation_dotted h hfirst, ← wrapped_eq_iff]
    constructor
    · intro hsame
      have hwrapped : wrapped (arcs (subidentifiers content)) ≠ [] := by
        have hne := arcs_ne_nil h.subidentifiers_ne_nil
        cases harcs : arcs (subidentifiers content) with
        | nil => exact absurd harcs hne
        | cons n ns => cases ns <;> exact List.cons_ne_nil _ _
      exact (dottedForm_injective (arcs_ne_nil h.subidentifiers_ne_nil) hwrapped hsame).symm
    · intro hsame
      rw [hsame]
  · rw [display_dotted h hfirst, display_dotted h' hfirst'] at hsame
    exact eq_of_dottedForm h h' hsame
  · rw [hnarrow.dotted h, hnarrow'.dotted h'] at hsame
    exact eq_of_dottedForm h h' hsame

/-- The identifier of RSA Data Security. -/
theorem rsadsi_dotted :
    display [0x2A, 0x86, 0x48, 0x86, 0xF7, 0x0D] = chars "1.2.840.113549" ∧
      oidDotNotation [0x2A, 0x86, 0x48, 0x86, 0xF7, 0x0D] = chars "1.2.840.113549" ∧
      display [0x55, 0x04, 0x03] ≠ display [0x2A, 0x86, 0x48, 0x86, 0xF7, 0x0D] := by
  have hrsadsi : Canonical [0x2A, 0x86, 0x48, 0x86, 0xF7, 0x0D] :=
    ⟨by decide, by decide, by decide⟩
  have hname : Canonical [0x55, 0x04, 0x03] := ⟨by decide, by decide, by decide⟩
  obtain ⟨hdisplay, hshort, -⟩ := renderers_dotted hrsadsi
  obtain ⟨-, -, hapart⟩ := renderers_dotted hname
  refine ⟨?_, ?_, fun hsame => ?_⟩
  · rw [hdisplay (by decide)]
    decide
  · rw [(hshort (by decide)).1]
    decide
  · have heq := (hapart _ hrsadsi).1 (by decide) (by decide) hsame
    exact absurd heq (by decide)

/-- **Three identifiers that are not rendered in dotted form**: 1.2.4294967296, 2.40 and 2.999. -/
theorem misrendered :
    (Canonical [0x2A, 0x90, 0x80, 0x80, 0x80, 0x00] ∧
      arcs (subidentifiers [0x2A, 0x90, 0x80, 0x80, 0x80, 0x00]) = [1, 2, 4294967296] ∧
      oidDotNotation [0x2A, 0x90, 0x80, 0x80, 0x80, 0x00] = chars "1.2.0" ∧
      oidDotNotation [0x2A, 0x00] = chars "1.2.0") ∧
    (Canonical [0x78] ∧ arcs (subidentifiers [0x78]) = [2, 40] ∧
      display [0x78] = chars "2.40" ∧ oidDotNotation [0x78] = chars "3.0") ∧
    (Canonical [0x88, 0x37] ∧ arcs (subidentifiers [0x88, 0x37]) = [2, 999] ∧
      display [0x88, 0x37] = chars "2.56.55" ∧ oidDotNotation [0x88, 0x37] = chars "3.16.55") := by
  refine ⟨⟨⟨by decide, by decide, by decide⟩, ?_, ?_, ?_⟩,
    ⟨⟨by decide, by decide, by decide⟩, ?_, ?_, ?_⟩,
    ⟨by decide, by decide, by decide⟩, ?_, ?_, ?_⟩ <;>
  decide

end Oid

end RefineId
