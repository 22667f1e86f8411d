import SceneForge.Deflate.Inflate

/-!
# Bits of compressed streams

Bytes and the bits that they are made of, numbers and the bits that spell them, and
the steps of decompression. `Step.Runs` says which bits a step takes, whatever
follows them, and what becomes of the output; steps that `Step.Reads` describes leave
the output alone wherever they stand.
-/

namespace SceneForge.Deflate

theorem natToBits_succ (width n : Nat) :
    natToBits (width + 1) n = n.testBit 0 :: natToBits width (n / 2) := by
  rw [natToBits, List.range_succ_eq_map, List.map_cons, List.map_map, natToBits]
  congr 1
  apply List.map_congr_left
  intro index _
  exact Nat.testBit_add_one n index

@[simp] theorem length_natToBits (width n : Nat) : (natToBits width n).length = width := by
  simp [natToBits]

/-- The low bits of a number come before the high ones. -/
theorem natToBits_add (low high n : Nat) :
    natToBits (low + high) n = natToBits low n ++ natToBits high (n / 2 ^ low) := by
  induction low generalizing n with
  | zero => simp [natToBits]
  | succ low ih =>
      rw [Nat.succ_add, natToBits_succ, ih, natToBits_succ, List.cons_append, Nat.pow_succ,
        Nat.mul_comm (2 ^ low), Nat.div_div_eq_div_mul]

theorem bitsToNat_natToBits (width n : Nat) : bitsToNat (natToBits width n) = n % 2 ^ width := by
  induction width generalizing n with
  | zero => simp [natToBits, bitsToNat, Nat.mod_one]
  | succ width ih =>
      have low : (n.testBit 0).toNat = n % 2 := by
        rw [Nat.testBit_zero]
        rcases Nat.mod_two_eq_zero_or_one n with even | odd <;> simp [*]
      rw [natToBits_succ, bitsToNat, ih, low, Nat.pow_succ, Nat.mul_comm (2 ^ width), Nat.mod_mul]

theorem natToBits_bitsToNat (bits : List Bool) : natToBits bits.length (bitsToNat bits) = bits := by
  induction bits with
  | nil => rfl
  | cons bit bits ih =>
      have low : (bitsToNat (bit :: bits)).testBit 0 = bit := by
        rw [bitsToNat, Nat.testBit_zero]
        cases bit <;> simp
      have high : bitsToNat (bit :: bits) / 2 = bitsToNat bits := by
        rw [bitsToNat]
        cases bit with
        | false => simp
        | true =>
            simp
            omega
      rw [List.length_cons, natToBits_succ, low, high, ih]

/-- A number that needs no more bits than given is spelled by no other number's bits. -/
theorem natToBits_inj {width n m : Nat} (nSmall : n < 2 ^ width) (mSmall : m < 2 ^ width)
    (same : natToBits width n = natToBits width m) : n = m := by
  have values := congrArg bitsToNat same
  rwa [bitsToNat_natToBits, bitsToNat_natToBits, Nat.mod_eq_of_lt nSmall,
    Nat.mod_eq_of_lt mSmall] at values

theorem toBits_cons (byte : UInt8) (bytes : List UInt8) :
    toBits (byte :: bytes) = natToBits 8 byte.toNat ++ toBits bytes := rfl

theorem toBits_append (front back : List UInt8) :
    toBits (front ++ back) = toBits front ++ toBits back := by
  rw [toBits, List.flatMap_append]
  rfl

@[simp] theorem length_toBits (bytes : List UInt8) : (toBits bytes).length = 8 * bytes.length := by
  induction bytes with
  | nil => rfl
  | cons byte bytes ih =>
      rw [toBits_cons, List.length_append, length_natToBits, ih, List.length_cons]
      omega

/-- Bytes made up of bits begin with these bits. -/
theorem exists_toBits_ofBits (bits : List Bool) :
    ∃ filling, toBits (ofBits bits) = bits ++ filling := by
  induction bits using ofBits.induct with
  | case1 bits nothing =>
      rw [List.isEmpty_iff] at nothing
      subst nothing
      exact ⟨[], by rw [ofBits]; rfl⟩
  | case2 bits more ih =>
      obtain ⟨filling, others⟩ := ih
      have small : bitsToNat (bits.take 8) < 256 := by
        have spelled := bitsToNat_natToBits (bits.take 8).length (bitsToNat (bits.take 8))
        rw [natToBits_bitsToNat] at spelled
        have few : 2 ^ (bits.take 8).length ≤ 2 ^ 8 :=
          Nat.pow_le_pow_right (by decide) (List.length_take_le 8 bits)
        have bound := Nat.mod_lt (bitsToNat (bits.take 8)) (Nat.two_pow_pos (bits.take 8).length)
        omega
      have byte : (UInt8.ofNat (bitsToNat (bits.take 8))).toNat = bitsToNat (bits.take 8) :=
        UInt8.toNat_ofNat_of_lt' small
      rw [ofBits, if_neg more, toBits_cons, byte, others]
      by_cases enough : 8 ≤ bits.length
      · have front : (bits.take 8).length = 8 := by
          rw [List.length_take]
          omega
        have spelled := natToBits_bitsToNat (bits.take 8)
        rw [front] at spelled
        refine ⟨filling, ?_⟩
        rw [spelled, ← List.append_assoc, List.take_append_drop]
      · have all : bits.take 8 = bits := List.take_of_length_le (by omega)
        have none : bits.drop 8 = [] := List.drop_eq_nil_of_le (by omega)
        rw [all, none, List.nil_append]
        have width : 8 = bits.length + (8 - bits.length) := by omega
        rw [width, natToBits_add, natToBits_bitsToNat, List.append_assoc]
        exact ⟨_, rfl⟩

namespace Step

variable {α β : Type}

/-- A step that begins after some bits takes certain further ones, gives a value, and
turns one output into another. -/
def Runs (step : Step α) (taken : Nat) (output : Array UInt8) (bits : List Bool) (value : α)
    (written : Array UInt8) : Prop :=
  ∀ rest, step ⟨taken, bits ++ rest, output⟩ = .ok (value, ⟨taken + bits.length, rest, written⟩)

theorem Runs.bind {first : Step α} {next : α → Step β} {taken : Nat} {front back : List Bool}
    {value : α} {result : β} {output between written : Array UInt8}
    (runs : first.Runs taken output front value between)
    (runsNext : (next value).Runs (taken + front.length) between back result written) :
    (first >>= next).Runs taken output (front ++ back) result written := by
  intro rest
  have step := runs (back ++ rest)
  have following := runsNext rest
  rw [List.append_assoc, List.length_append, ← Nat.add_assoc]
  change Except.bind (first _) _ = _
  rw [step]
  exact following

theorem pure_runs (value : α) (taken : Nat) (output : Array UInt8) :
    (pure value : Step α).Runs taken output [] value output :=
  fun _ => rfl

/-- A step takes certain bits and gives a value. -/
def Reads (step : Step α) (bits : List Bool) (value : α) : Prop :=
  ∀ taken output, step.Runs taken output bits value output

theorem pure_reads (value : α) : (pure value : Step α).Reads [] value :=
  pure_runs value

theorem Reads.bind {first : Step α} {next : α → Step β} {front back : List Bool} {value : α}
    {result : β} (reads : first.Reads front value) (readsNext : (next value).Reads back result) :
    (first >>= next).Reads (front ++ back) result :=
  fun taken output => (reads taken output).bind (readsNext _ output)

theorem Reads.change {step : Step α} {bits : List Bool} {value : α} (reads : step.Reads bits value)
    (change : α → β) : (step >>= fun value => pure (change value)).Reads bits (change value) := by
  rw [← List.append_nil bits]
  exact reads.bind (pure_reads (change value))

theorem bit_reads (value : Bool) : bit.Reads [value] value :=
  fun _ _ _ => rfl

theorem write_runs {target : Nat} {output : Array UInt8} (room : output.size < target)
    (byte : UInt8) (taken : Nat) :
    (write target byte).Runs taken output [] () (output.push byte) := by
  intro rest
  rw [write, if_neg (by simpa using room)]
  rfl

theorem number_reads (width n : Nat) : (number width).Reads (natToBits width n) (n % 2 ^ width) := by
  induction width generalizing n with
  | zero =>
      rw [Nat.pow_zero, Nat.mod_one]
      exact pure_reads 0
  | succ width ih =>
      have value : n % 2 ^ (width + 1) =
          (n.testBit 0).toNat + 2 * (n / 2 % 2 ^ width) := by
        rw [← bitsToNat_natToBits, natToBits_succ, bitsToNat, bitsToNat_natToBits]
      rw [natToBits_succ, value]
      exact (bit_reads (n.testBit 0)).bind ((ih (n / 2)).change _)

end Step

end SceneForge.Deflate
