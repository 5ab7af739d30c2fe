import Gocoon.TlPrimitives
import Gocoon.TlFrame

/-!
# The proof of work before the TLS handshake

The server sends 24 bytes: a magic word, the number of leading zero bits it asks for and a salt.
The client counts nonces up from zero until the hash of salt and nonce has enough zeros, and
answers with a magic word and the nonce. The counter is an `int64` and the search ends at the
latest when it overflows. SHA-256 is any function of the 24 bytes it is given.
-/

namespace Gocoon.ProofOfWork

open Gocoon.LittleEndianBytes
open Gocoon.TlPrimitives
open Gocoon.TlFrame

set_option autoImplicit false

def powMagicChallenge : UInt32 := 0x418e1291

def powMagicResponse : UInt32 := 0x01827319

def maxDifficultyDefault : Int32 := 32

inductive PowError where
  | readChallenge (cause : IoError)
  | magicMismatch (got : UInt32)
  | difficultyTooHigh (asked max : Int32)
  | nonceOverflow
  | writeResponse (cause : IoError)
  deriving DecidableEq

def PowError.text : PowError → String
  | .readChallenge cause => "router: pow: read challenge: " ++ cause.text
  | .magicMismatch got =>
      "router: pow: challenge magic mismatch: got 0x" ++
        String.ofList (Nat.toDigits 16 got.toNat)
  | .difficultyTooHigh asked max =>
      s!"router: pow: difficulty exceeds MaxDifficulty: server asked {asked}, max {max}"
  | .nonceOverflow => "router: pow: nonce overflow (impossible difficulty)"
  | .writeResponse cause => "router: pow: write response: " ++ cause.text

/-- The raw connection: the bytes still to come with the error that stands behind them, what has
been written, and how the next `Write` fails, with the number of bytes that it lets through. -/
structure RawConn where
  incoming : List Byte
  ends : IoError
  written : List Byte
  writeFault : Option (Nat × IoError)

/-- `io.ReadFull`: bytes that are followed by the end of the stream too early are an unexpected
end. -/
def RawConn.readFull (conn : RawConn) (count : Nat) : Except IoError (List Byte) × RawConn :=
  match splitExactly count conn.incoming with
  | some (front, rest) => (.ok front, { conn with incoming := rest })
  | none =>
      let cause := if conn.incoming ≠ [] ∧ conn.ends = .eof then .unexpectedEof else conn.ends
      (.error cause, { conn with incoming := [] })

def RawConn.write (conn : RawConn) (data : List Byte) : Option IoError × RawConn :=
  match conn.writeFault with
  | none => (none, { conn with written := conn.written ++ data })
  | some (count, cause) => (some cause, { conn with written := conn.written ++ data.take count })

/-! ## The condition on a nonce -/

/-- `bits.Len64`. -/
def len64 (word : UInt64) : Nat := if word = 0 then 0 else word.toNat.log2 + 1

/-- `bits.LeadingZeros64`. -/
def leadingZeros64 (word : UInt64) : Nat := 64 - len64 word

abbrev Salt := FixedBytes 16

/-- `sha256.Sum256` of an array of 24 bytes. -/
abbrev Sum256 := FixedBytes 24 → FixedBytes 32

theorem hashed_length (salt : Salt) (nonce : Int64) :
    (salt.val ++ putUint64 nonce.toUInt64).length = 24 := by
  rw [List.length_append, salt.property, put_uint64_length]

def hashed (salt : Salt) (nonce : Int64) : FixedBytes 24 :=
  ⟨salt.val ++ putUint64 nonce.toUInt64, hashed_length salt nonce⟩

def verifyPoWResponse (sum256 : Sum256) (salt : Salt) (difficulty : Int32) (nonce : Int64) :
    Bool :=
  let word := uint64 ((sum256 (hashed salt nonce)).val.take 8)
  difficulty ≤ Int32.ofNat (leadingZeros64 word)

theorem verify_zero (sum256 : Sum256) (salt : Salt) (nonce : Int64) :
    verifyPoWResponse sum256 salt 0 nonce = true := by
  have small : ∀ word : UInt64, leadingZeros64 word < 2 ^ 31 := fun word =>
    lt_of_le_of_lt (Nat.sub_le 64 (len64 word)) (by decide)
  apply decide_eq_true
  rw [Int32.le_iff_toInt_le, Int32.toInt_ofNat_of_lt (small _)]
  exact Int.natCast_nonneg _

/-! ## The search -/

def remaining (nonce : Int64) : Nat := if 0 ≤ nonce then (2 ^ 63 - nonce.toInt).toNat else 0

theorem next_nonce {nonce : Int64} (below : nonce.toInt < 2 ^ 63 - 1) (counts : 0 ≤ nonce) :
    (nonce + 1).toInt = nonce.toInt + 1 := by
  rw [Int64.le_iff_toInt_le, Int64.toInt_zero] at counts
  rw [Int64.toInt_add, Int64.toInt_one, Int.bmod_eq_of_le]
  · omega
  · omega

theorem last_nonce {nonce : Int64} (last : nonce.toInt = 2 ^ 63 - 1) : ¬ 0 ≤ nonce + 1 := by
  rw [Int64.le_iff_toInt_le, Int64.toInt_add, last]
  decide

theorem remaining_next {nonce : Int64} (counts : 0 ≤ nonce) :
    remaining (nonce + 1) < remaining nonce := by
  have bound := nonce.toInt_lt
  have low : 0 ≤ nonce.toInt := by
    rw [Int64.le_iff_toInt_le, Int64.toInt_zero] at counts
    exact counts
  rw [remaining, remaining, if_pos counts]
  by_cases below : nonce.toInt < 2 ^ 63 - 1
  · have next := next_nonce below counts
    split_ifs <;> omega
  · have last : nonce.toInt = 2 ^ 63 - 1 := by omega
    rw [if_neg (last_nonce last)]
    omega

/-- The loop of `findNonce` from a counter on. -/
def searchFrom (sum256 : Sum256) (salt : Salt) (difficulty : Int32) (nonce : Int64) :
    Except PowError Int64 :=
  if 0 ≤ nonce then
    let word := uint64 ((sum256 (hashed salt nonce)).val.take 8)
    if difficulty ≤ Int32.ofNat (leadingZeros64 word) then .ok nonce
    else searchFrom sum256 salt difficulty (nonce + 1)
  else .error .nonceOverflow
termination_by remaining nonce
decreasing_by exact remaining_next ‹_›

def findNonce (sum256 : Sum256) (salt : Salt) (difficulty : Int32) : Except PowError Int64 :=
  if difficulty = 0 then .ok 0 else searchFrom sum256 salt difficulty 0

def responseBytes (nonce : Int64) : List Byte :=
  putUint32 powMagicResponse ++ putUint64 nonce.toUInt64

def effectiveMax (maxDifficulty : Int32) : Int32 :=
  if maxDifficulty ≤ 0 then maxDifficultyDefault else maxDifficulty

def solvePoW (sum256 : Sum256) (conn : RawConn) (maxDifficulty : Int32) :
    Option PowError × RawConn :=
  match conn.readFull 24 with
  | (.error cause, conn) => (some (.readChallenge cause), conn)
  | (.ok challenge, conn) =>
      let magic := uint32 (challenge.take 4)
      if magic ≠ powMagicChallenge then (some (.magicMismatch magic), conn)
      else
        let difficulty := (uint32 ((challenge.drop 4).take 4)).toInt32
        let max := effectiveMax maxDifficulty
        if difficulty < 0 ∨ max < difficulty then (some (.difficultyTooHigh difficulty max), conn)
        else
          match findNonce sum256 (copyInto 16 (challenge.drop 8)) difficulty with
          | .error fault => (some fault, conn)
          | .ok nonce =>
              match conn.write (responseBytes nonce) with
              | (some cause, conn) => (some (.writeResponse cause), conn)
              | (none, conn) => (none, conn)

section Search

variable {sum256 : Sum256} {salt : Salt} {difficulty : Int32} {counter found : Int64}

/-- The smallest nonce that is not negative and verifies. -/
def LeastNonce (sum256 : Sum256) (salt : Salt) (difficulty : Int32) (nonce : Int64) : Prop :=
  0 ≤ nonce ∧ verifyPoWResponse sum256 salt difficulty nonce = true ∧
    ∀ smaller, 0 ≤ smaller → smaller < nonce →
      verifyPoWResponse sum256 salt difficulty smaller = false

theorem search_step (counts : 0 ≤ counter) :
    searchFrom sum256 salt difficulty counter =
      if verifyPoWResponse sum256 salt difficulty counter = true then .ok counter
      else searchFrom sum256 salt difficulty (counter + 1) := by
  conv_lhs => rw [searchFrom, if_pos counts]
  simp only [verifyPoWResponse, decide_eq_true_eq]

theorem search_overflow (negative : ¬ 0 ≤ counter) :
    searchFrom sum256 salt difficulty counter = .error .nonceOverflow := by
  rw [searchFrom, if_neg negative]

theorem next_le {nonce : Int64} (counts : 0 ≤ counter) (behind : counter < nonce) :
    0 ≤ counter + 1 ∧ counter + 1 ≤ nonce := by
  have bound := nonce.toInt_lt
  rw [Int64.lt_iff_toInt_lt] at behind
  have next := next_nonce (by omega) counts
  rw [Int64.le_iff_toInt_le, Int64.toInt_zero] at counts
  rw [Int64.le_iff_toInt_le, Int64.le_iff_toInt_le, Int64.toInt_zero, next]
  omega

theorem le_next {nonce : Int64} (counts : 0 ≤ counter) (still : 0 ≤ counter + 1)
    (reached : counter + 1 ≤ nonce) : counter ≤ nonce := by
  have bound := counter.toInt_lt
  by_cases below : counter.toInt < 2 ^ 63 - 1
  · rw [Int64.le_iff_toInt_le, next_nonce below counts] at reached
    rw [Int64.le_iff_toInt_le]
    omega
  · exact absurd still (last_nonce (by omega))

/-- What the search from a counter on has found out. -/
def Searched (sum256 : Sum256) (salt : Salt) (difficulty : Int32) (counter : Int64) :
    Except PowError Int64 → Prop
  | .ok found =>
      0 ≤ counter ∧ counter ≤ found ∧ verifyPoWResponse sum256 salt difficulty found = true ∧
        ∀ smaller, counter ≤ smaller → smaller < found →
          verifyPoWResponse sum256 salt difficulty smaller = false
  | .error fault =>
      fault = .nonceOverflow ∧ ∀ nonce, 0 ≤ counter → counter ≤ nonce →
        verifyPoWResponse sum256 salt difficulty nonce = false

theorem Searched.previous (counts : 0 ≤ counter)
    (refused : verifyPoWResponse sum256 salt difficulty counter = false)
    {result : Except PowError Int64}
    (searched : Searched sum256 salt difficulty (counter + 1) result) :
    Searched sum256 salt difficulty counter result := by
  cases result with
  | ok found =>
      obtain ⟨still, reached, verified, earlier⟩ := searched
      refine ⟨counts, le_next counts still reached, verified, ?_⟩
      intro smaller low high
      rcases Int64.lt_or_eq_of_le low with behind | same
      · exact earlier smaller (next_le counts behind).2 high
      · rw [← same]
        exact refused
  | error fault =>
      refine ⟨searched.1, ?_⟩
      intro nonce _ low
      rcases Int64.lt_or_eq_of_le low with behind | same
      · exact searched.2 nonce (next_le counts behind).1 (next_le counts behind).2
      · rw [← same]
        exact refused

theorem search_spec (sum256 : Sum256) (salt : Salt) (difficulty : Int32) (counter : Int64) :
    Searched sum256 salt difficulty counter (searchFrom sum256 salt difficulty counter) := by
  -- on the distance of the counter from its overflow, as the loop terminates
  induction left : remaining counter using Nat.strong_induction_on generalizing counter with
  | _ distance induction =>
      by_cases counts : 0 ≤ counter
      · rw [search_step counts]
        split_ifs with verified
        · have nothing : ∀ smaller, counter ≤ smaller → smaller < counter →
              verifyPoWResponse sum256 salt difficulty smaller = false :=
            fun smaller low high => absurd low (Int64.not_le.mpr high)
          exact ⟨counts, Int64.le_refl _, verified, nothing⟩
        · have closer : remaining (counter + 1) < distance := left ▸ remaining_next counts
          exact (induction _ closer _ rfl).previous counts (Bool.eq_false_iff.mpr verified)
      · rw [search_overflow counts]
        exact ⟨rfl, fun _ nonnegative => absurd nonnegative counts⟩

theorem LeastNonce.unique {first second : Int64}
    (one : LeastNonce sum256 salt difficulty first)
    (other : LeastNonce sum256 salt difficulty second) : first = second := by
  rcases Int.lt_trichotomy first.toInt second.toInt with lower | same | lower
  · have refused := other.2.2 first one.1 (Int64.lt_iff_toInt_lt.mpr lower)
    rw [one.2.1] at refused
    cases refused
  · exact Int64.toInt_inj.mp same
  · have refused := one.2.2 second other.1 (Int64.lt_iff_toInt_lt.mpr lower)
    rw [other.2.1] at refused
    cases refused

theorem least_at_zero : LeastNonce sum256 salt 0 0 :=
  ⟨Int64.le_refl 0, verify_zero sum256 salt 0, fun _ low high =>
    absurd low (Int64.not_le.mpr high)⟩

theorem find_nonce_iff {nonce : Int64} :
    findNonce sum256 salt difficulty = .ok nonce ↔ LeastNonce sum256 salt difficulty nonce := by
  unfold findNonce
  split_ifs with zero
  · rw [zero, Except.ok.injEq]
    exact ⟨fun same => same ▸ least_at_zero, least_at_zero.unique⟩
  · have spec := search_spec sum256 salt difficulty 0
    cases result : searchFrom sum256 salt difficulty 0 with
    | ok found =>
        rw [result] at spec
        rw [Except.ok.injEq]
        exact ⟨fun same => same ▸ spec.2, fun least => LeastNonce.unique spec.2 least⟩
    | error fault =>
        rw [result] at spec
        simp only [reduceCtorEq, false_iff]
        intro least
        have refused := spec.2 nonce (Int64.le_refl 0) least.1
        rw [least.2.1] at refused
        cases refused

end Search

/-! ## The exchange -/

def challengeBytes (magic : UInt32) (difficulty : Int32) (salt : Salt) : List Byte :=
  putUint32 magic ++ (putUint32 difficulty.toUInt32 ++ salt.val)

section Exchange

variable {sum256 : Sum256} {conn : RawConn} {maxDifficulty : Int32}

theorem challenge_length (magic : UInt32) (difficulty : Int32) (salt : Salt) :
    (challengeBytes magic difficulty salt).length = 24 := by
  simp [challengeBytes, salt.property]

theorem challenge_of_bytes {challenge : List Byte} (width : challenge.length = 24) :
    ∃ magic difficulty salt, challenge = challengeBytes magic difficulty salt := by
  have magicWidth : (challenge.take 4).length = 4 := by simp [width]
  have wordWidth : ((challenge.drop 4).take 4).length = 4 := by simp [width]
  have saltWidth : ((challenge.drop 4).drop 4).length = 16 := by simp [width]
  refine ⟨uint32 (challenge.take 4), (uint32 ((challenge.drop 4).take 4)).toInt32,
    ⟨(challenge.drop 4).drop 4, saltWidth⟩, ?_⟩
  rw [challengeBytes, UInt32.toUInt32_toInt32, put_uint32_of_bytes _ magicWidth,
    put_uint32_of_bytes _ wordWidth, List.take_append_drop, List.take_append_drop]

/-- What `SolvePoW` does with a challenge that it has read. -/
def answerChallenge (sum256 : Sum256) (conn : RawConn) (max : Int32) (magic : UInt32)
    (difficulty : Int32) (salt : Salt) : Option PowError × RawConn :=
  if magic ≠ powMagicChallenge then (some (.magicMismatch magic), conn)
  else if difficulty < 0 ∨ max < difficulty then (some (.difficultyTooHigh difficulty max), conn)
  else
    match findNonce sum256 salt difficulty with
    | .error fault => (some fault, conn)
    | .ok nonce =>
        match conn.write (responseBytes nonce) with
        | (some cause, conn) => (some (.writeResponse cause), conn)
        | (none, conn) => (none, conn)

theorem solve_challenge {magic : UInt32} {difficulty : Int32} {salt : Salt} {rest : List Byte}
    (sent : conn.incoming = challengeBytes magic difficulty salt ++ rest) :
    solvePoW sum256 conn maxDifficulty =
      answerChallenge sum256 { conn with incoming := rest } (effectiveMax maxDifficulty) magic
        difficulty salt := by
  have split := split_exactly_append (challengeBytes magic difficulty salt) rest
  rw [challenge_length, ← sent] at split
  have word : (uint32 (((challengeBytes magic difficulty salt).drop 4).take 4)).toInt32 =
      difficulty := by
    rw [challengeBytes, List.drop_left' (put_uint32_length magic),
      List.take_left' (put_uint32_length _)]
    have read := uint32_put_append difficulty.toUInt32 []
    rw [List.append_nil] at read
    rw [read]
    exact Int32.toInt32_toUInt32 difficulty
  have first : uint32 ((challengeBytes magic difficulty salt).take 4) = magic := by
    rw [challengeBytes, List.take_left' (put_uint32_length magic)]
    have read := uint32_put_append magic []
    rw [List.append_nil] at read
    exact read
  have last : copyInto 16 ((challengeBytes magic difficulty salt).drop 8) = salt := by
    have behind : (challengeBytes magic difficulty salt).drop 8 = salt.val := by
      rw [challengeBytes, ← List.append_assoc]
      exact List.drop_left' (by simp)
    rw [behind, copy_into_exact]
  unfold solvePoW answerChallenge
  simp only [RawConn.readFull, split, first, word, last]

theorem solve_short (sum256 : Sum256) (maxDifficulty : Int32)
    (short : conn.incoming.length < 24) :
    ∃ cause, solvePoW sum256 conn maxDifficulty =
      (some (.readChallenge cause), { conn with incoming := [] }) := by
  have split : splitExactly 24 conn.incoming = none := if_neg (Nat.not_le.mpr short)
  unfold solvePoW
  simp only [RawConn.readFull, split]
  exact ⟨_, rfl⟩

theorem challenge_cases (conn : RawConn) :
    conn.incoming.length < 24 ∨ ∃ magic difficulty salt rest,
      conn.incoming = challengeBytes magic difficulty salt ++ rest := by
  rcases Nat.lt_or_ge conn.incoming.length 24 with short | enough
  · exact Or.inl short
  · obtain ⟨magic, difficulty, salt, same⟩ :=
      challenge_of_bytes (List.length_take_of_le enough)
    exact Or.inr ⟨magic, difficulty, salt, conn.incoming.drop 24, by
      rw [← same, List.take_append_drop]⟩

/-- Every error but a failed write of the response leaves the connection as it was. -/
theorem answer_fault {max : Int32} {magic : UInt32} {difficulty : Int32} {salt : Salt}
    {fault : PowError} {after : RawConn}
    (failed : answerChallenge sum256 conn max magic difficulty salt = (some fault, after)) :
    (∃ cause, fault = .writeResponse cause) ∨ after = conn := by
  unfold answerChallenge at failed
  split_ifs at failed
  · cases failed
    exact Or.inr rfl
  · cases failed
    exact Or.inr rfl
  · cases found : findNonce sum256 salt difficulty with
    | error cause =>
        rw [found] at failed
        cases failed
        exact Or.inr rfl
    | ok nonce =>
        rw [found] at failed
        simp only [RawConn.write] at failed
        cases stuck : conn.writeFault with
        | none =>
            rw [stuck] at failed
            cases failed
        | some pair =>
            rw [stuck] at failed
            cases failed
            exact Or.inl ⟨_, rfl⟩

/-- The answer is given in one case only: the magic word, a difficulty in the range, a nonce that
exists and a write that succeeds. -/
theorem answer_none_iff {max : Int32} {magic : UInt32} {difficulty : Int32} {salt : Salt}
    {after : RawConn} :
    answerChallenge sum256 conn max magic difficulty salt = (none, after) ↔
      magic = powMagicChallenge ∧ (0 ≤ difficulty ∧ difficulty ≤ max) ∧
        conn.writeFault = none ∧ ∃ nonce, LeastNonce sum256 salt difficulty nonce ∧
          after = { conn with written := conn.written ++ responseBytes nonce } := by
  have inside : ¬ (difficulty < 0 ∨ max < difficulty) ↔ 0 ≤ difficulty ∧ difficulty ≤ max := by
    rw [not_or, Int32.not_lt, Int32.not_lt]
  unfold answerChallenge
  rw [← inside]
  by_cases known : magic = powMagicChallenge
  · by_cases range : difficulty < 0 ∨ max < difficulty
    · simp [known, range]
    · rw [if_neg (not_not.mpr known), if_neg range]
      simp only [known, range, not_false_eq_true, true_and, ← find_nonce_iff]
      cases findNonce sum256 salt difficulty with
      | error fault => simp
      | ok nonce =>
          cases stuck : conn.writeFault with
          | none => simp [RawConn.write, stuck, eq_comm]
          | some pair => simp [RawConn.write, stuck]
  · simp [known]

end Exchange

theorem challenge_spelled (difficulty : Int32) (salt : Salt) :
    challengeBytes powMagicChallenge difficulty salt =
      [0x91, 0x12, 0x8e, 0x41] ++ littleEndian 4 difficulty.toUInt32.toNat ++ salt.val := by
  rw [challengeBytes, ← List.append_assoc, ← encode_le_places]
  rfl

theorem response_spelled (nonce : Int64) :
    responseBytes nonce =
      [0x19, 0x73, 0x82, 0x01] ++ littleEndian 8 nonce.toUInt64.toNat := by
  rw [responseBytes, ← encode_le_places]
  rfl

/-- `SolvePoW` succeeds exactly on a challenge that it may answer, with the least nonce that the
verifier accepts. It has then read 24 bytes and written 12. With any error but a failed write of
the response it has written nothing. -/
theorem pow_answer_exact (sum256 : Sum256) (conn : RawConn) (maxDifficulty : Int32) :
    (∀ after, solvePoW sum256 conn maxDifficulty = (none, after) ↔
      ∃ difficulty salt nonce challenge response rest,
        conn.incoming = challenge ++ rest ∧ challenge.length = 24 ∧
        challenge =
          [0x91, 0x12, 0x8e, 0x41] ++ littleEndian 4 difficulty.toUInt32.toNat ++ salt.val ∧
        (0 ≤ difficulty ∧ difficulty ≤ if maxDifficulty ≤ 0 then 32 else maxDifficulty) ∧
        conn.writeFault = none ∧ LeastNonce sum256 salt difficulty nonce ∧
        response.length = 12 ∧
        response = [0x19, 0x73, 0x82, 0x01] ++ littleEndian 8 nonce.toUInt64.toNat ∧
        after = { conn with incoming := rest, written := conn.written ++ response }) ∧
    ∀ fault after, solvePoW sum256 conn maxDifficulty = (some fault, after) →
      (∃ cause, fault = .writeResponse cause) ∨ after.written = conn.written := by
  constructor
  · intro after
    constructor
    · intro solved
      rcases challenge_cases conn with short | ⟨magic, difficulty, salt, rest, sent⟩
      · obtain ⟨cause, failed⟩ := solve_short sum256 maxDifficulty short
        rw [failed] at solved
        cases solved
      · rw [solve_challenge sent, answer_none_iff] at solved
        obtain ⟨rfl, range, writes, nonce, least, rfl⟩ := solved
        exact ⟨difficulty, salt, nonce, _, _, rest, sent, challenge_length _ _ _,
          challenge_spelled difficulty salt, range, writes, least, by simp [responseBytes],
          response_spelled nonce, rfl⟩
    · intro answerable
      obtain ⟨difficulty, salt, nonce, _, _, rest, sent, -, rfl, range, writes, least, -, rfl,
        rfl⟩ := answerable
      rw [← challenge_spelled] at sent
      rw [solve_challenge sent, answer_none_iff, ← response_spelled]
      exact ⟨rfl, range, writes, nonce, least, rfl⟩
  · intro fault after failed
    rcases challenge_cases conn with short | ⟨magic, difficulty, salt, rest, sent⟩
    · obtain ⟨cause, read⟩ := solve_short sum256 maxDifficulty short
      rw [read] at failed
      cases failed
      exact Or.inr rfl
    · rw [solve_challenge sent] at failed
      rcases answer_fault failed with write | same
      · exact Or.inl write
      · rw [same]
        exact Or.inr rfl

end Gocoon.ProofOfWork
