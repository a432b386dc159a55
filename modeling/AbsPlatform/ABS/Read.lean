import AbsPlatform.MCS.Codec

/-!
# Read — the time limits of `abs_read`

`abs_read` of `Libraries/ABS/abs.c` with its clock.  It reads byte after byte, each time waiting in
`select` for what is left of the timeout.  `Codec` has the same function without its time: here the
bytes are those of the turns in which nothing goes wrong.

The members of a `timeval` are `long`s and do not overflow.  The time that is left is stored in an
`int`: of the difference of two times only the low 32 bits count, whatever the width of a `long`.
-/

namespace AbsPlatform

def etimeout : Int := -8

def usToSec : Int := 1000000

namespace ABS

/-! ## Times -/

structure Timeval where
  tvSec : Int
  tvUsec : Int
  deriving DecidableEq

/-- The time in microseconds. -/
def Timeval.micros (t : Timeval) : Int := t.tvSec * usToSec + t.tvUsec

/-- The members are those of a time: `gettimeofday` returns such, and `select` takes such. -/
structure Timeval.Normalised (t : Timeval) : Prop where
  sec : 0 ≤ t.tvSec
  usec : 0 ≤ t.tvUsec
  usec_lt : t.tvUsec < usToSec

/-- `us / US_TO_SEC` and `us % US_TO_SEC`. -/
def splitMicros (us : Int) : Timeval where
  tvSec := us.tdiv usToSec
  tvUsec := us.tmod usToSec

/-- `end`.  The second that is carried over is not taken from the microseconds. -/
def endTime (start : Timeval) (timeoutUs : Int) : Timeval :=
  let sum : Timeval :=
    { tvSec := start.tvSec + timeoutUs.tdiv usToSec
      tvUsec := start.tvUsec + timeoutUs.tmod usToSec }
  if usToSec < sum.tvUsec then { sum with tvSec := sum.tvSec + 1 } else sum

/-- `max_time` after the clock has been read again. -/
def timeLeft (fin now : Timeval) : Timeval := splitMicros (toCInt (fin.micros - now.micros))

/-! ## The loop -/

/-- What the descriptor and the clock do in one turn. -/
structure Turn where
  /-- what `select` returns -/
  selected : Int
  /-- what `read` returns, and the byte it stores -/
  rOp : Int
  byte : UInt8
  /-- what `gettimeofday` stores after that -/
  clock : Timeval

/-- The turn does not end the function. -/
def Turn.GoesOn (t : Turn) : Prop := 0 < t.selected ∧ t.rOp = 1

instance (t : Turn) : Decidable t.GoesOn := inferInstanceAs (Decidable (_ ∧ _))

/-- What a call has done: the time limits of its calls of `select`, what it has put into the buffer,
and what it returns. -/
structure Outcome where
  limits : List Timeval
  buffer : List UInt8
  result : Int

/-- The loop with `left` bytes to go; `turns k` is what happens in turn `k`. -/
def readLoop (fin : Timeval) (turns : Nat → Turn) : Nat → Nat → Timeval → Outcome
  | 0, bytesRead, _ => { limits := [], buffer := [], result := bytesRead }
  | left + 1, bytesRead, maxTime =>
      let turn := turns bytesRead
      if turn.selected ≤ 0 then { limits := [maxTime], buffer := [], result := etimeout }
      else if turn.rOp ≠ 1 then { limits := [maxTime], buffer := [], result := eundef }
      else
        let rest := readLoop fin turns left (bytesRead + 1) (timeLeft fin turn.clock)
        { limits := maxTime :: rest.limits
          buffer := turn.byte :: rest.buffer
          result := rest.result }

/-- `abs_read`, begun at time `start`. -/
def absRead (start : Timeval) (turns : Nat → Turn) (bufSize timeoutUs : BitVec 32) : Outcome :=
  readLoop (endTime start timeoutUs.toInt) turns bufSize.toInt.toNat 0
    (splitMicros timeoutUs.toInt)

/-- The time that the clock has shown last when `select` is called for the turn. -/
def lastReading (start : Timeval) (turns : Nat → Turn) : Nat → Timeval
  | 0 => start
  | k + 1 => (turns k).clock

section

variable {fin start : Timeval} {turns : Nat → Turn}

theorem readLoop_of_goesOn {left k : Nat} {maxTime : Timeval} (h : (turns k).GoesOn) :
    readLoop fin turns (left + 1) k maxTime =
      { limits := maxTime :: (readLoop fin turns left (k + 1) (timeLeft fin (turns k).clock)).limits
        buffer := (turns k).byte ::
          (readLoop fin turns left (k + 1) (timeLeft fin (turns k).clock)).buffer
        result := (readLoop fin turns left (k + 1) (timeLeft fin (turns k).clock)).result } := by
  have hselected : ¬ (turns k).selected ≤ 0 := Int.not_le.2 h.1
  simp [readLoop, hselected, h.2]

theorem limits_of_not_goesOn {left k : Nat} {maxTime : Timeval} (h : ¬ (turns k).GoesOn) :
    (readLoop fin turns (left + 1) k maxTime).limits = [maxTime] := by
  unfold readLoop
  dsimp only
  split_ifs with hselected hread
  · rfl
  · rfl
  · exact absurd ⟨Int.not_le.1 hselected, not_not.1 hread⟩ h

theorem outcome_of_not_goesOn {left k : Nat} {maxTime : Timeval} (h : ¬ (turns k).GoesOn) :
    (readLoop fin turns (left + 1) k maxTime).buffer = [] ∧
      (readLoop fin turns (left + 1) k maxTime).result < 0 := by
  unfold readLoop
  dsimp only
  split_ifs with hselected hread
  · exact ⟨rfl, show etimeout < 0 by decide⟩
  · exact ⟨rfl, show eundef < 0 by decide⟩
  · exact absurd ⟨Int.not_le.1 hselected, not_not.1 hread⟩ h

theorem codec_absRead_cons (n : Nat) (b : UInt8) (bytes : List UInt8) :
    (MCS.absRead (n + 1) (b :: bytes)).1.map Subtype.val =
      ((MCS.absRead n bytes).1.map Subtype.val).map (List.cons b) := by
  rcases h : MCS.absRead n bytes with ⟨_ | bs, rest⟩
  · simp [MCS.absRead, h]
  · simp [MCS.absRead, h]

/-- Without its time, the function is the one of `Codec` on the bytes that arrive. -/
theorem codec_absRead (left k : Nat) (maxTime : Timeval) :
    (MCS.absRead left (readLoop fin turns left k maxTime).buffer).1.map Subtype.val =
      if (readLoop fin turns left k maxTime).result < 0 then none
      else some (readLoop fin turns left k maxTime).buffer := by
  induction left generalizing k maxTime with
  | zero =>
      have hresult : ¬ (k : Int) < 0 := Int.not_lt.2 (Int.natCast_nonneg k)
      simp [readLoop, MCS.absRead, hresult]
  | succ left ih =>
      by_cases hgoes : (turns k).GoesOn
      · rw [readLoop_of_goesOn hgoes]
        dsimp only
        rw [codec_absRead_cons, ih]
        split_ifs
        · rfl
        · rfl
      · rcases outcome_of_not_goesOn hgoes with ⟨hbuffer, hresult⟩
        rw [hbuffer, if_pos hresult]
        rfl

theorem limits_zero {left k : Nat} {maxTime limit : Timeval} :
    (readLoop fin turns left k maxTime).limits[0]? = some limit ↔ 0 < left ∧ limit = maxTime := by
  cases left with
  | zero => simp [readLoop]
  | succ left =>
      by_cases hgoes : (turns k).GoesOn
      · simp [readLoop_of_goesOn hgoes, eq_comm]
      · simp [limits_of_not_goesOn hgoes, eq_comm]

/-- `select` is called again after turn `j`: there are bytes to go, and none of the turns so far has
ended the function. -/
def AsksAgain (turns : Nat → Turn) (bufSize j : Nat) : Prop :=
  j + 1 < bufSize ∧ ∀ i ≤ j, (turns i).GoesOn

theorem asksAgain_succ_iff {bufSize j : Nat} (h : (turns 0).GoesOn) :
    AsksAgain turns (bufSize + 1) (j + 1) ↔ AsksAgain (fun i => turns (i + 1)) bufSize j := by
  refine and_congr Nat.succ_lt_succ_iff ⟨fun hall i hi => hall (i + 1) (Nat.succ_le_succ hi), ?_⟩
  intro hall i hi
  cases i with
  | zero => exact h
  | succ i => exact hall i (Nat.le_of_succ_le_succ hi)

theorem limits_succ {left k j : Nat} {maxTime limit : Timeval} :
    (readLoop fin turns left k maxTime).limits[j + 1]? = some limit ↔
      AsksAgain (fun i => turns (k + i)) left j ∧ limit = timeLeft fin (turns (k + j)).clock := by
  induction left generalizing k j maxTime with
  | zero => simp [readLoop, AsksAgain]
  | succ left ih =>
      by_cases hgoes : (turns k).GoesOn
      · rw [readLoop_of_goesOn hgoes, List.getElem?_cons_succ]
        cases j with
        | zero => simp [limits_zero, AsksAgain, hgoes]
        | succ j =>
            -- the same for the turns behind the first one
            have hshift : (fun i => turns (k + 1 + i)) = fun i => turns (k + (i + 1)) := by
              funext i
              rw [Nat.add_assoc, Nat.add_comm 1]
            have hasks : AsksAgain (fun i => turns (k + i)) (left + 1) (j + 1) ↔
                AsksAgain (fun i => turns (k + (i + 1))) left j :=
              asksAgain_succ_iff hgoes
            rw [ih, hshift, hasks, Nat.add_assoc, Nat.add_comm 1]
      · rw [limits_of_not_goesOn hgoes]
        refine iff_of_false (by simp) fun h => hgoes ?_
        exact h.1.2 0 (Nat.zero_le _)

end

/-! ## Arithmetic -/

section

variable {start now : Timeval} {timeoutUs : Int}

theorem micros_splitMicros (us : Int) : (splitMicros us).micros = us := by
  unfold splitMicros Timeval.micros
  rw [Int.mul_comm]
  exact Int.mul_tdiv_add_tmod us usToSec

theorem normalised_splitMicros {us : Int} (h : 0 ≤ us) : (splitMicros us).Normalised where
  sec := Int.tdiv_nonneg h (by decide)
  usec := Int.tmod_nonneg _ h
  usec_lt := Int.tmod_lt_of_pos us (by decide)

/-- The end is a second too late when a second is carried over. -/
theorem micros_endTime (start : Timeval) (timeoutUs : Int) :
    (endTime start timeoutUs).micros = start.micros + timeoutUs +
      if usToSec < start.tvUsec + timeoutUs.tmod usToSec then usToSec else 0 := by
  have hsplit : timeoutUs.tdiv usToSec * usToSec + timeoutUs.tmod usToSec = timeoutUs :=
    micros_splitMicros timeoutUs
  unfold endTime Timeval.micros
  dsimp only
  split_ifs
  · dsimp only
    rw [Int.add_mul, Int.add_mul]
    omega
  · dsimp only
    rw [Int.add_mul]
    omega

theorem toCInt_ne_of_carry (x : Int) : toCInt (x + usToSec) ≠ x := by
  unfold toCInt usToSec
  rw [Int.bmod_def]
  split_ifs
  · omega
  · omega

/-- What is left is right when no second is carried over and the difference fits into an `int`. -/
theorem micros_timeLeft_iff (htimeout : timeoutUs < 2147483648)
    (hnow : start.micros ≤ now.micros) :
    (timeLeft (endTime start timeoutUs) now).micros =
        start.micros + timeoutUs - now.micros ↔
      start.tvUsec + timeoutUs.tmod usToSec ≤ usToSec ∧
        now.micros ≤ start.micros + timeoutUs + 2147483648 := by
  rw [timeLeft, micros_splitMicros, micros_endTime]
  split_ifs with hcarry
  · have hsum : start.micros + timeoutUs + usToSec - now.micros =
        start.micros + timeoutUs - now.micros + usToSec := by omega
    rw [hsum]
    exact iff_of_false (toCInt_ne_of_carry _) fun h => absurd h.1 (Int.not_le.2 hcarry)
  · rw [Int.add_zero, toCInt_eq_iff]
    have hle : start.tvUsec + timeoutUs.tmod usToSec ≤ usToSec := Int.not_lt.1 hcarry
    constructor
    · rintro ⟨hlow, _⟩
      exact ⟨hle, by omega⟩
    · rintro ⟨_, hlate⟩
      exact ⟨by omega, by omega⟩

end

/-! ## The timeout -/

/-- Each call of `select` gets what is left until the end of the timeout, as a time if anything is
left, and does not wait beyond it. -/
structure HonoursTimeout (start : Timeval) (timeoutUs : Int) (turns : Nat → Turn)
    (limits : List Timeval) : Prop where
  limit : ∀ k limit, limits[k]? = some limit →
    limit.micros = start.micros + timeoutUs - (lastReading start turns k).micros
  normalised : ∀ k limit, limits[k]? = some limit →
    (lastReading start turns k).micros ≤ start.micros + timeoutUs → limit.Normalised
  within : ∀ k limit, limits[k]? = some limit →
    (lastReading start turns k).micros + limit.micros ≤ start.micros + timeoutUs

/-- `abs_read` honours its timeout exactly when `select` is called only once, or when the start and
the timeout carry no second over and no reading of the clock with a call of `select` after it is
more than 2³¹ microseconds late. -/
theorem honoursTimeout_iff (start : Timeval) (turns : Nat → Turn) (bufSize timeoutUs : BitVec 32)
    (hclock : ∀ k, (lastReading start turns k).micros ≤ (lastReading start turns (k + 1)).micros) :
    HonoursTimeout start timeoutUs.toInt turns (absRead start turns bufSize timeoutUs).limits ↔
      ∀ k, AsksAgain turns bufSize.toInt.toNat k →
        start.tvUsec + timeoutUs.toInt.tmod usToSec ≤ usToSec ∧
          (turns k).clock.micros ≤ start.micros + timeoutUs.toInt + 2147483648 := by
  have hmax : timeoutUs.toInt < 2147483648 := by
    simpa using BitVec.toInt_lt (x := timeoutUs)
  have hlater : ∀ k, start.micros ≤ (turns k).clock.micros := by
    intro k
    induction k with
    | zero => exact hclock 0
    | succ k ih => exact Int.le_trans ih (hclock (k + 1))
  have hzero : ∀ limit, (absRead start turns bufSize timeoutUs).limits[0]? = some limit →
      limit = splitMicros timeoutUs.toInt := fun limit h => (limits_zero.1 h).2
  have hsucc : ∀ k limit, (absRead start turns bufSize timeoutUs).limits[k + 1]? = some limit ↔
      AsksAgain turns bufSize.toInt.toNat k ∧
        limit = timeLeft (endTime start timeoutUs.toInt) (turns k).clock := by
    intro k limit
    simpa [absRead] using limits_succ (k := 0) (j := k)
  constructor
  · intro h k hasks
    have hlimit := h.limit (k + 1) _ ((hsucc k _).2 ⟨hasks, rfl⟩)
    exact (micros_timeLeft_iff hmax (hlater k)).1 hlimit
  · intro hall
    have hlimit : ∀ k limit, (absRead start turns bufSize timeoutUs).limits[k]? = some limit →
        limit.micros = start.micros + timeoutUs.toInt - (lastReading start turns k).micros := by
      intro k limit h
      cases k with
      | zero =>
          rw [hzero limit h, micros_splitMicros, lastReading]
          omega
      | succ k =>
          rcases (hsucc k limit).1 h with ⟨hasks, rfl⟩
          exact (micros_timeLeft_iff hmax (hlater k)).2 (hall k hasks)
    refine ⟨hlimit, fun k limit h hleft => ?_, fun k limit h => ?_⟩
    · -- each limit is split from its microseconds
      have hsplit : ∃ us, limit = splitMicros us := by
        cases k with
        | zero => exact ⟨_, hzero limit h⟩
        | succ k => exact ⟨_, ((hsucc k limit).1 h).2⟩
      rcases hsplit with ⟨us, rfl⟩
      have hus := hlimit k _ h
      rw [micros_splitMicros] at hus
      exact normalised_splitMicros (by omega)
    · have heq := hlimit k limit h
      omega

/-- A byte arrives, and the clock shows the time after it. -/
def byteAt (clock : Timeval) : Turn where
  selected := 1
  rOp := 1
  byte := 0
  clock := clock

/-- `MCS_READ_TIMEOUT_US`. -/
def mcsReadTimeoutUs : BitVec 32 := 100000

/-- An identifier is read from 0.3 s on, a byte every 10 ms. -/
theorem honoursTimeout_iff_early :
    HonoursTimeout ⟨0, 300000⟩ 100000 (fun k => byteAt ⟨0, 310000 + 10000 * k⟩)
      (absRead ⟨0, 300000⟩ (fun k => byteAt ⟨0, 310000 + 10000 * k⟩) 4
        mcsReadTimeoutUs).limits := by
  refine (honoursTimeout_iff ⟨0, 300000⟩ _ 4 mcsReadTimeoutUs fun k => ?_).2 fun k hasks => ?_
  · cases k with
    | zero => simp [lastReading, byteAt, Timeval.micros]
    | succ k =>
        simp only [lastReading, byteAt, Timeval.micros]
        omega
  · have hk : k < 3 := by
      have hlt := hasks.1
      have h4 : (4 : BitVec 32).toInt.toNat = 4 := by decide
      omega
    refine ⟨by decide, ?_⟩
    have htimeout : mcsReadTimeoutUs.toInt = 100000 := by decide
    simp only [byteAt, Timeval.micros, htimeout]
    omega

/-- From 0.95 s on a second is carried over: after the first byte `select` may wait for more than a
second, where 0.09 s are left. -/
theorem late_phase_waits_longer :
    (absRead ⟨0, 950000⟩ (fun _ => byteAt ⟨0, 960000⟩) 4 mcsReadTimeoutUs).limits[1]? =
        some ⟨1, 90000⟩ ∧
      (⟨0, 950000⟩ : Timeval).micros + mcsReadTimeoutUs.toInt -
        (lastReading ⟨0, 950000⟩ (fun _ => byteAt ⟨0, 960000⟩) 1).micros = 90000 ∧
      ¬ HonoursTimeout ⟨0, 950000⟩ 100000 (fun _ => byteAt ⟨0, 960000⟩)
        (absRead ⟨0, 950000⟩ (fun _ => byteAt ⟨0, 960000⟩) 4 mcsReadTimeoutUs).limits := by
  have hlimit : (absRead ⟨0, 950000⟩ (fun _ => byteAt ⟨0, 960000⟩) 4
      mcsReadTimeoutUs).limits[1]? = some ⟨1, 90000⟩ := by decide
  refine ⟨hlimit, by decide, fun h => ?_⟩
  have hmicros := h.limit 1 _ hlimit
  revert hmicros
  decide

end ABS
end AbsPlatform
