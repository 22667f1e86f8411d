import SceneForge.Deflate.Inflate
import SceneForge.Proofs.Results

/-!
# Limits of decompression

What a limit changes of decompression. A stream that is read to its end under some
target is read in the same way under every other one, up to where the other stops it.
So a stream whose data is known is known under all limits.
-/

namespace SceneForge.Deflate

namespace Step

variable {α β : Type}

/-- A step under all targets, from one state to another: it goes there under the targets
that leave room for what it writes, and at the others it stops when they are reached. -/
structure Reaches (step : Nat → Step α) (state : Inflating) (value : α) (after : Inflating) :
    Prop where
  grows : state.output.toList <+: after.output.toList
  fits : ∀ target, after.output.size ≤ target → step target state = .ok (value, after)
  stops : ∀ target, state.output.size ≤ target → target < after.output.size →
    ∃ output, step target state = .error (.full output) ∧
      output.toList = after.output.toList.take target

/-- The target matters to a step only where it stops it, and stops it only when it is
reached. -/
structure Capped (step : Nat → Step α) : Prop where
  reaches : ∀ {target state value after}, step target state = .ok (value, after) →
    Reaches step state value after
  full : ∀ {target state output}, step target state = .error (.full output) →
    target ≤ output.size

theorem bind_ok_iff {first : Step α} {next : α → Step β} {state after : Inflating} {result : β} :
    (first >>= next) state = .ok (result, after) ↔
      ∃ value between, first state = .ok (value, between) ∧
        next value between = .ok (result, after) := by
  change first state >>= (fun (value, between) => next value between) = _ ↔ _
  rw [SceneForge.bind_eq_ok_iff, Prod.exists]

theorem bind_error_iff {first : Step α} {next : α → Step β} {state : Inflating} {stop : Stop} :
    (first >>= next) state = .error stop ↔
      first state = .error stop ∨
        ∃ value between, first state = .ok (value, between) ∧ next value between = .error stop := by
  change first state >>= (fun (value, between) => next value between) = _ ↔ _
  rw [SceneForge.bind_eq_error_iff, Prod.exists]

theorem bind_of_full {first : Step α} {next : α → Step β} {state : Inflating}
    {output : Array UInt8} (full : first state = .error (.full output)) :
    (first >>= next) state = .error (.full output) := by
  change first state >>= (fun (value, between) => next value between) = _
  rw [full]
  rfl

theorem bind_of_ok {first : Step α} {next : α → Step β} {state between : Inflating} {value : α}
    (done : first state = .ok (value, between)) :
    (first >>= next) state = next value between := by
  change first state >>= (fun (value, between) => next value between) = _
  rw [done]
  rfl

theorem Reaches.size_le {step : Nat → Step α} {state after : Inflating} {value : α}
    (reaches : Reaches step state value after) : state.output.size ≤ after.output.size :=
  reaches.grows.length_le

theorem Capped.bind {first : Nat → Step α} {next : Nat → α → Step β} (capped : Capped first)
    (cappedNext : ∀ value, Capped fun target => next target value) :
    Capped fun target => first target >>= next target where
  reaches {target state result after} done := by
    obtain ⟨value, between, reached, ended⟩ := bind_ok_iff.mp done
    have front := capped.reaches reached
    have back := (cappedNext value).reaches ended
    refine ⟨front.grows.trans back.grows, ?_, ?_⟩
    · intro other room
      rw [bind_of_ok (front.fits other (Nat.le_trans back.size_le room))]
      exact back.fits other room
    · intro other begun less
      rcases Nat.lt_or_ge other between.output.size with early | late
      · obtain ⟨output, full, written⟩ := front.stops other begun early
        refine ⟨output, bind_of_full full, ?_⟩
        obtain ⟨more, whole⟩ := back.grows
        rw [written, ← whole, List.take_append_of_le_length (Nat.le_of_lt early)]
      · rw [bind_of_ok (front.fits other late)]
        exact back.stops other late less
  full {target state output} stopped := by
    rcases bind_error_iff.mp stopped with stopped | ⟨value, between, reached, stopped⟩
    · exact capped.full stopped
    · exact (cappedNext value).full stopped

/-- A step that knows no target and writes nothing. -/
theorem capped_of_quiet {step : Step α}
    (quiet : ∀ {state value after}, step state = .ok (value, after) → after.output = state.output)
    (notFull : ∀ {state output}, step state ≠ .error (.full output)) : Capped fun _ => step where
  reaches {target state value after} done := by
    have same := quiet done
    refine ⟨same ▸ List.prefix_rfl, fun _ _ => done, ?_⟩
    intro other begun less
    rw [same] at less
    omega
  full stopped := (notFull stopped).elim

theorem capped_pure (value : α) : Capped fun _ => (pure value : Step α) :=
  capped_of_quiet (fun done => by cases done; rfl) nofun

theorem capped_corrupt_bind (next : Nat → β → Step α) :
    Capped fun target => (throw .corrupt : Step β) >>= next target :=
  ⟨nofun, nofun⟩

theorem capped_corrupt : Capped fun _ => (throw .corrupt : Step α) :=
  ⟨nofun, nofun⟩

theorem capped_get : Capped fun _ => (get : Step Inflating) :=
  capped_of_quiet (fun done => by cases done; rfl) nofun

theorem capped_bit : Capped fun _ => bit := by
  refine capped_of_quiet ?_ ?_
  · intro state value after done
    rw [bit] at done
    split at done
    next => cases done
    next =>
      cases done
      rfl
  · intro state output stopped
    rw [bit] at stopped
    split at stopped <;> cases stopped

theorem capped_write (byte : UInt8) : Capped fun target => write target byte where
  reaches {target state value after} done := by
    change (if target ≤ state.output.size then _ else _) = _ at done
    split at done
    next => cases done
    next =>
      cases done
      refine ⟨by simp, ?_, ?_⟩
      · intro other room
        rw [Array.size_push] at room
        exact if_neg (by omega)
      · intro other begun less
        rw [Array.size_push] at less
        obtain rfl : other = state.output.size := by omega
        refine ⟨state.output, if_pos (Nat.le_refl _), ?_⟩
        simp
  full {target state output} stopped := by
    change (if target ≤ state.output.size then _ else _) = _ at stopped
    split at stopped
    next reached =>
      cases stopped
      exact reached
    next => cases stopped

theorem capped_number (width : Nat) : Capped fun _ => number width := by
  induction width with
  | zero => exact capped_pure 0
  | succ width ih => exact capped_bit.bind fun low => ih.bind fun high => capped_pure _

theorem capped_symbol (tree : Tree) : Capped fun _ => symbol tree := by
  induction tree with
  | empty => exact capped_corrupt
  | leaf symbol => exact capped_pure symbol
  | node zero one zeroCapped oneCapped =>
      refine capped_bit.bind fun bit => ?_
      cases bit with
      | false => exact zeroCapped
      | true => exact oneCapped

theorem capped_align : Capped fun _ => align :=
  capped_get.bind fun _ => (capped_number _).bind fun _ => capped_pure ()

theorem capped_value (ranges : List ValueRange) (index : Nat) :
    Capped fun _ => value ranges index := by
  unfold value
  split
  next => exact capped_corrupt
  next => exact (capped_number _).bind fun _ => capped_pure _

theorem capped_copy (distance length : Nat) : Capped fun target => copy target distance length := by
  induction length with
  | zero => exact capped_pure ()
  | succ length ih =>
      exact capped_get.bind fun state => (capped_write _).bind fun _ => ih

theorem capped_stored (count : Nat) : Capped fun target => stored target count := by
  induction count with
  | zero => exact capped_pure ()
  | succ count ih => exact (capped_number 8).bind fun byte => (capped_write _).bind fun _ => ih

theorem capped_compressed (literals distances : Tree) (fuel : Nat) :
    Capped fun target => compressed target literals distances fuel := by
  induction fuel with
  | zero => exact capped_corrupt
  | succ fuel ih =>
      unfold compressed
      refine (capped_symbol literals).bind fun code => ?_
      split
      next => exact (capped_write _).bind fun _ => ih
      next =>
        split
        next => exact capped_pure ()
        next =>
          refine (capped_value copyLengths _).bind fun length => ?_
          refine (capped_symbol distances).bind fun word => ?_
          refine (capped_value copyDistances word).bind fun distance => ?_
          exact (capped_copy distance length).bind fun _ => ih

theorem capped_lengths (tree : Tree) (count : Nat) (before : List Nat) (fuel : Nat) :
    Capped fun _ => lengths tree count before fuel := by
  induction fuel generalizing before with
  | zero => exact capped_corrupt
  | succ fuel ih =>
      unfold lengths
      split
      next => exact capped_corrupt
      next =>
        split
        next => exact capped_pure _
        next =>
          refine (capped_symbol tree).bind fun code => ?_
          split
          next => exact ih _
          next =>
            split
            next =>
              split
              next => exact capped_corrupt
              next => exact (capped_number 2).bind fun times => ih _
            next =>
              split
              next => exact (capped_number 3).bind fun times => ih _
              next => exact (capped_number 7).bind fun times => ih _

theorem capped_checked (lengths : Lengths) : Capped fun _ => checked lengths := by
  unfold checked
  split
  next => exact capped_pure _
  next => exact capped_corrupt

theorem capped_mapM {γ : Type} {step : γ → Step α} (capped : ∀ value, Capped fun _ => step value)
    (values : List γ) : Capped fun _ => values.mapM step := by
  induction values with
  | nil =>
      simp only [List.mapM_nil]
      exact capped_pure []
  | cons value rest ih =>
      simp only [List.mapM_cons]
      exact (capped value).bind fun first => ih.bind fun others => capped_pure _

theorem capped_codes : Capped fun _ => codes := by
  unfold codes
  refine (capped_number 5).bind fun literals => ?_
  refine (capped_number 5).bind fun distances => ?_
  refine (capped_number 4).bind fun lengthCount => ?_
  split
  next => exact capped_corrupt_bind _
  next =>
    refine (capped_mapM (fun _ => capped_number 3) _).bind fun written => ?_
    dsimp only
    split
    next => exact capped_corrupt_bind _
    next =>
      refine (capped_lengths _ _ _ _).bind fun all => ?_
      refine (capped_checked _).bind fun distanceTree => ?_
      exact (capped_checked _).bind fun literalTree => capped_pure _

theorem capped_block (fuel : Nat) : Capped fun target => block target fuel := by
  unfold block
  refine capped_bit.bind fun last => ?_
  refine (capped_number 2).bind fun kind => ?_
  split
  next =>
    refine capped_align.bind fun _ => ?_
    refine (capped_number 16).bind fun count => ?_
    refine (capped_number 16).bind fun check => ?_
    split
    next => exact capped_corrupt_bind _
    next => exact (capped_stored count).bind fun _ => capped_pure last
  next => exact (capped_compressed _ _ fuel).bind fun _ => capped_pure last
  next =>
    refine capped_codes.bind fun trees => ?_
    exact (capped_compressed trees.1 trees.2 fuel).bind fun _ => capped_pure last
  next => exact capped_corrupt_bind _

theorem capped_blocks (symbols fuel : Nat) : Capped fun target => blocks target symbols fuel := by
  induction fuel with
  | zero => exact capped_corrupt
  | succ fuel ih =>
      refine (capped_block symbols).bind fun last => ?_
      cases last with
      | false => exact ih
      | true => exact capped_pure ()

end Step

/-- Data that ends before a limit is found under every other limit, as far as that goes. -/
theorem inflate_of_inflate_lt {limit : Nat} {stream data : List UInt8}
    (inflated : inflate limit stream = some data) (whole : data.length < limit) (other : Nat) :
    inflate other stream = some (data.take other) := by
  have rounded (limit : Nat) : limit ≤ (limit + windowSize - 1) / windowSize * windowSize := by
    rw [windowSize]
    omega
  have capped := Step.capped_blocks (8 * stream.length + 1) (8 * stream.length + 1)
  rw [inflate] at inflated
  have enough := rounded limit
  generalize (limit + windowSize - 1) / windowSize * windowSize = target at inflated enough
  rw [inflate]
  have beyond := rounded other
  generalize (other + windowSize - 1) / windowSize * windowSize = reached at beyond ⊢
  split at inflated
  next value state ran =>
    have reaches := capped.reaches ran
    rw [Option.some.injEq] at inflated
    have all : state.output.toList = data := by
      rw [← inflated, List.length_take] at whole
      rw [← inflated, List.take_of_length_le (by omega)]
    have size : state.output.size = data.length := by rw [← all, Array.length_toList]
    -- The other target stops decompression before its end, or leaves room for all.
    rcases Nat.lt_or_ge reached data.length with less | room
    · obtain ⟨output, full, written⟩ := reaches.stops reached (Nat.zero_le _) (by omega)
      rw [full]
      simp only [written, all, List.take_take, Nat.min_eq_left beyond]
    · have ended := reaches.fits reached (by omega)
      rw [ended]
      simp only [all]
  -- Under its own limit it cannot have stopped: the data ends before.
  next output stopped =>
    have reached := capped.full stopped
    rw [Option.some.injEq] at inflated
    rw [← inflated, List.length_take, Array.length_toList] at whole
    omega
  next output stopped =>
    split at inflated
    next reached =>
      rw [Option.some.injEq] at inflated
      rw [← inflated, List.length_take, Array.length_toList] at whole
      omega
    next => cases inflated
  next => cases inflated

end SceneForge.Deflate
