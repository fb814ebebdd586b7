import Vllm.Foundation.Borders

namespace Vllm.SpecDecode

open Foundation

/-!
# Drafts from an earlier occurrence of the last tokens

The drafts are the tokens that followed the last few tokens when these occurred
before.  On the reversed list the last tokens are a prefix, and an earlier
occurrence is a border of a longer prefix.  The loop visits the prefixes in
order with the longest border of each, where borders longer than `maxNgram` are
given up.
-/

variable {A : Type}

/-- The variables of the loop: the table of longest borders, the longest n-gram that
was found and the end of its rightmost occurrence in the reversed list, the border
that is tried, and the position. -/
structure Scan where
  lps : List Nat
  longestNgram : Nat
  position : Nat
  prevLps : Nat
  i : Nat

namespace Scan

/-- One pass through the loop.  There is no result when an index is out of
bounds. -/
def advance [DecidableEq A] (tokens : List A) (maxNgram : Nat) (scan : Scan) : Option Scan :=
  match tokens[scan.prevLps]?, tokens[scan.i]? with
  | some expected, some token =>
    if expected = token then
      let prevLps := scan.prevLps + 1
      let longer := scan.longestNgram <= prevLps
      let lps := if scan.i < maxNgram then scan.lps.set scan.i prevLps else scan.lps
      (if prevLps = maxNgram then lps[maxNgram - 1]? else some prevLps).map fun next =>
        { lps := lps
          longestNgram := if longer then prevLps else scan.longestNgram
          position := if longer then scan.i else scan.position
          prevLps := next
          i := scan.i + 1 }
    else if scan.prevLps = 0 then some { scan with i := scan.i + 1 }
    else scan.lps[scan.prevLps - 1]?.map fun next => { scan with prevLps := next }
  | _, _ => none

/-- The loop, for as many passes as there is fuel.  `Sound.loop` shows that twice the
number of tokens is enough. -/
def loop [DecidableEq A] (tokens : List A) (maxNgram : Nat) : Nat -> Scan -> Option Scan
  | 0, _ => none
  | fuel + 1, scan =>
    if scan.i < tokens.length then (scan.advance tokens maxNgram).bind (loop tokens maxNgram fuel)
    else some scan

end Scan

/-- The drafts for a list of tokens.  There is no result when an index is out of bounds
or the fuel is used up, which never happens. -/
def findLongestMatchedNgramAndProposeTokens [DecidableEq A] (originTokens : List A)
    (minNgram maxNgram : Nat) (maxModelLen k : Int) : Option (List A) :=
  let totalToken := originTokens.length
  let k := min k (maxModelLen - totalToken)
  if totalToken < minNgram then some []
  else if k <= 0 then some []
  else
    let start : Scan := ⟨List.replicate maxNgram 0, 0, 0, 0, 1⟩
    (start.loop originTokens.reverse maxNgram (2 * totalToken)).map fun scan =>
      if scan.longestNgram < minNgram then []
      else
        let startPosition := totalToken - 1 - scan.position + scan.longestNgram
        (originTokens.drop startPosition).take (min k (totalToken - startPosition)).toNat

/-! ## The loop -/

namespace Scan

variable {tokens : List A} {maxNgram : Nat} {scan : Scan}

/-- What holds at the head of the loop.  The table has the longest borders of the
prefixes that were visited.  The border that is tried is the longest one below
`maxNgram` with which the text may go on.  The n-gram that was found is the longest
one so far, at its last place. -/
structure Sound (tokens : List A) (maxNgram : Nat) (scan : Scan) : Prop where
  size : scan.lps.length = maxNgram
  within : scan.i <= tokens.length
  table : ∀ j < maxNgram, ∃ border, scan.lps[j]? = some border /\
    if j < scan.i then LongestBorder (tokens[·]?) (j + 1) border else border = 0
  border : Border (tokens[·]?) scan.i scan.prevLps
  below : scan.prevLps < maxNgram
  greatest : ∀ other < maxNgram, Border (tokens[·]?) scan.i other ->
    tokens[other]? = tokens[scan.i]? -> other <= scan.prevLps
  found : scan.longestNgram ≠ 0 -> scan.longestNgram <= maxNgram /\ scan.position < scan.i /\
    Border (tokens[·]?) (scan.position + 1) scan.longestNgram
  longest : ∀ length, length <= scan.i -> ∀ other, other <= maxNgram ->
    Border (tokens[·]?) length other ->
    other <= scan.longestNgram /\
      (other ≠ 0 -> other = scan.longestNgram -> length <= scan.position + 1)

/-- The entry of the table that leads to the next border. -/
theorem Sound.entry (sound : scan.Sound tokens maxNgram) (border : Nat) (positive : border ≠ 0)
    (bound : border <= maxNgram) (inside : border <= scan.i) :
    ∃ next, scan.lps[border - 1]? = some next /\
      LongestBorder (tokens[·]?) border next := by
  rcases sound.table (border - 1) (by omega) with ⟨next, isNext, isLongest⟩
  rw [if_pos (by omega), Nat.sub_add_cancel (Nat.pos_of_ne_zero positive)] at isLongest
  exact ⟨next, isNext, isLongest⟩

/-- After a match, all borders up to `maxNgram` are at most as long as the new one. -/
theorem Sound.le_of_match (sound : scan.Sound tokens maxNgram) {other : Nat}
    (bound : other <= maxNgram) (isBorder : Border (tokens[·]?) (scan.i + 1) other) :
    other <= scan.prevLps + 1 := by
  cases other with
  | zero => exact Nat.zero_le _
  | succ other =>
    rw [border_succ_iff] at isBorder
    exact Nat.succ_le_succ (sound.greatest other bound isBorder.1 isBorder.2)

/-- After a mismatch with the empty border, there is only the empty border. -/
theorem Sound.eq_zero_of_mismatch (sound : scan.Sound tokens maxNgram) (empty : scan.prevLps = 0)
    (mismatch : tokens[scan.prevLps]? ≠ tokens[scan.i]?) {other : Nat} (bound : other <= maxNgram)
    (isBorder : Border (tokens[·]?) (scan.i + 1) other) : other = 0 := by
  cases other with
  | zero => rfl
  | succ other =>
    rw [border_succ_iff] at isBorder
    have small := sound.greatest other bound isBorder.1 isBorder.2
    rw [empty, Nat.le_zero] at small
    rw [small, <- empty] at isBorder
    exact absurd isBorder.2 mismatch

/-- The table after a write at the place of the prefix that was just visited. -/
theorem Sound.table_step (sound : scan.Sound tokens maxNgram) (lps : List Nat) (border : Nat)
    (same : ∀ j ≠ scan.i, lps[j]? = scan.lps[j]?)
    (written : scan.i < maxNgram -> lps[scan.i]? = some border)
    (isBorder : scan.i < maxNgram -> LongestBorder (tokens[·]?) (scan.i + 1) border) :
    ∀ j < maxNgram, ∃ border, lps[j]? = some border /\
      if j < scan.i + 1 then LongestBorder (tokens[·]?) (j + 1) border else border = 0 := by
  intro j bound
  by_cases isNew : j = scan.i
  · subst isNew
    exact ⟨border, written bound, by rw [if_pos (Nat.lt_succ_self _)]; exact isBorder bound⟩
  · rcases sound.table j bound with ⟨old, isOld, isLongest⟩
    have sameSide : j < scan.i + 1 <-> j < scan.i := by omega
    simp only [sameSide]
    exact ⟨old, (same j isNew).trans isOld, isLongest⟩

section Match

variable {lps : List Nat} (isMatch : tokens[scan.prevLps]? = tokens[scan.i]?)
  (isLps : lps = if scan.i < maxNgram then scan.lps.set scan.i (scan.prevLps + 1) else scan.lps)

include isMatch in
theorem Sound.border_grows (sound : scan.Sound tokens maxNgram) :
    Border (tokens[·]?) (scan.i + 1) (scan.prevLps + 1) :=
  border_succ_iff.mpr ⟨sound.border, isMatch⟩

include isMatch isLps

/-- After a match the new border is written, if the table has a place for it. -/
theorem Sound.table_accept (sound : scan.Sound tokens maxNgram) :
    ∀ j < maxNgram, ∃ border, lps[j]? = some border /\
      if j < scan.i + 1 then LongestBorder (tokens[·]?) (j + 1) border else border = 0 := by
  refine sound.table_step lps (scan.prevLps + 1) (fun j different => ?_) (fun below => ?_)
    (fun below => ⟨sound.border_grows isMatch, fun other isBorder => ?_⟩)
  · rw [isLps]
    split
    · rw [List.getElem?_set_ne (Ne.symm different)]
    · rfl
  · rw [isLps, if_pos below, List.getElem?_set_self (sound.size ▸ below)]
  · have small : other < scan.i + 1 := isBorder.1
    exact sound.le_of_match (by omega) isBorder

/-- After a match the border grows, and falls back to the longest border of its own if
it has reached `maxNgram`. -/
theorem Sound.border_accept (sound : scan.Sound tokens maxNgram) {next : Nat}
    (isNext : (if scan.prevLps + 1 = maxNgram then lps[maxNgram - 1]?
      else some (scan.prevLps + 1)) = some next) :
    Border (tokens[·]?) (scan.i + 1) next /\ next < maxNgram /\
      ∀ other < maxNgram, Border (tokens[·]?) (scan.i + 1) other -> other <= next := by
  have grown := sound.border_grows isMatch
  have bound := sound.below
  have inside := sound.border.1
  split at isNext
  case isTrue capped =>
    rcases sound.table_accept isMatch isLps (maxNgram - 1) (by omega) with
      ⟨entry, isEntry, isLongest⟩
    cases isEntry.symm.trans isNext
    rw [if_pos (by omega), Nat.sub_add_cancel (by omega)] at isLongest
    rw [capped] at grown
    have step := isLongest.next grown
    exact ⟨step.1, isLongest.1.1, fun other below isBorder => step.2 other isBorder below⟩
  case isFalse notCapped =>
    cases isNext
    exact ⟨grown, by omega, fun other below isBorder =>
      sound.le_of_match (Nat.le_of_lt below) isBorder⟩

/-- A match keeps the invariant. -/
theorem Sound.accept (sound : scan.Sound tokens maxNgram) (more : scan.i < tokens.length)
    {next : Nat} (isNext : (if scan.prevLps + 1 = maxNgram then lps[maxNgram - 1]?
      else some (scan.prevLps + 1)) = some next) :
    Sound tokens maxNgram
      { lps := lps
        longestNgram :=
          if scan.longestNgram <= scan.prevLps + 1 then scan.prevLps + 1 else scan.longestNgram
        position := if scan.longestNgram <= scan.prevLps + 1 then scan.i else scan.position
        prevLps := next
        i := scan.i + 1 } := by
  have grown := sound.border_grows isMatch
  have isBorder := sound.border_accept isMatch isLps isNext
  constructor
  case size =>
    rw [isLps]
    split
    · rw [List.length_set, sound.size]
    · exact sound.size
  case within => exact more
  case table => exact sound.table_accept isMatch isLps
  case border => exact isBorder.1
  case below => exact isBorder.2.1
  case greatest => exact fun other below isOther _ => isBorder.2.2 other below isOther
  case found =>
    intro positive
    dsimp only at positive ⊢
    split at positive
    case isTrue longer =>
      rw [if_pos longer, if_pos longer]
      exact ⟨sound.below, Nat.lt_succ_self _, grown⟩
    case isFalse shorter =>
      rw [if_neg shorter, if_neg shorter]
      have found := sound.found positive
      exact ⟨found.1, Nat.lt_succ_of_lt found.2.1, found.2.2⟩
  case longest =>
    intro length isLength other small isOther
    dsimp only at isLength ⊢
    rcases Nat.lt_or_eq_of_le isLength with earlier | rfl
    · have old := sound.longest length (Nat.le_of_lt_succ earlier) other small isOther
      split
      · exact ⟨by omega, fun _ _ => by omega⟩
      · exact old
    · have small := sound.le_of_match small isOther
      split
      · exact ⟨small, fun _ _ => Nat.le_refl _⟩
      · exact ⟨by omega, fun _ same => by omega⟩

end Match

/-- After a mismatch the next shorter border is tried. -/
theorem Sound.fallBack (sound : scan.Sound tokens maxNgram)
    (mismatch : tokens[scan.prevLps]? ≠ tokens[scan.i]?) {next : Nat}
    (isLongest : LongestBorder (tokens[·]?) scan.prevLps next) :
    Sound tokens maxNgram { scan with prevLps := next } := by
  have step := isLongest.next sound.border
  refine { sound with
    border := step.1
    below := Nat.lt_trans isLongest.1.1 sound.below
    greatest := fun other small isOther same => step.2 other isOther ?_ }
  refine Nat.lt_of_le_of_ne (sound.greatest other small isOther same) ?_
  rintro rfl
  exact mismatch same

/-- After a mismatch with the empty border the next prefix is visited. -/
theorem Sound.skip (sound : scan.Sound tokens maxNgram) (more : scan.i < tokens.length)
    (empty : scan.prevLps = 0) (mismatch : tokens[scan.prevLps]? ≠ tokens[scan.i]?) :
    Sound tokens maxNgram { scan with i := scan.i + 1 } := by
  have onlyEmpty {other : Nat} (bound : other <= maxNgram) :=
    sound.eq_zero_of_mismatch empty mismatch bound
  have isEmpty : Border (tokens[·]?) (scan.i + 1) 0 := border_zero (Nat.succ_pos _)
  refine { sound with
    within := more
    table := sound.table_step scan.lps 0 (fun _ _ => rfl) (fun below => ?_)
      (fun below => ⟨isEmpty, fun other isOther => ?_⟩)
    border := empty ▸ isEmpty
    greatest := fun other below isOther _ => ?_
    found := fun positive => ?_
    longest := fun length isLength other small isOther => ?_ }
  · rcases sound.table scan.i below with ⟨entry, isEntry, isZero⟩
    rw [if_neg (Nat.lt_irrefl _)] at isZero
    rw [isEntry, isZero]
  · exact Nat.le_of_eq (onlyEmpty (Nat.le_trans (Nat.le_of_lt_succ isOther.1)
      (Nat.le_of_lt below)) isOther)
  · rw [onlyEmpty (Nat.le_of_lt below) isOther]
    exact Nat.zero_le _
  · have found := sound.found positive
    exact ⟨found.1, Nat.lt_succ_of_lt found.2.1, found.2.2⟩
  · rcases Nat.lt_or_eq_of_le isLength with earlier | rfl
    · exact sound.longest length (Nat.le_of_lt_succ earlier) other small isOther
    · have isZero := onlyEmpty small isOther
      exact ⟨isZero ▸ Nat.zero_le _, fun positive => absurd isZero positive⟩

theorem Sound.initial (some : 0 < tokens.length) (positive : 0 < maxNgram) :
    Sound tokens maxNgram ⟨List.replicate maxNgram 0, 0, 0, 0, 1⟩ := by
  have onlyEmpty {length other : Nat} (isLength : length <= 1)
      (isOther : Border (tokens[·]?) length other) : other = 0 := by
    have below := isOther.1
    omega
  constructor
  case size => exact List.length_replicate
  case within => exact some
  case table =>
    intro j below
    refine ⟨0, List.getElem?_replicate_of_lt below, ?_⟩
    split
    case isTrue first =>
      exact ⟨border_zero (Nat.succ_pos _), fun other isOther =>
        Nat.le_of_eq (onlyEmpty first isOther)⟩
    · rfl
  case border => exact border_zero Nat.one_pos
  case below => exact positive
  case greatest => exact fun other _ isOther _ => Nat.le_of_eq (onlyEmpty (Nat.le_refl _) isOther)
  case found => exact fun absent => absurd rfl absent
  case longest =>
    intro length isLength other _ isOther
    have isZero := onlyEmpty isLength isOther
    exact ⟨Nat.le_of_eq isZero, fun positive => absurd isZero positive⟩

variable [DecidableEq A]

/-- One pass keeps the invariant and comes closer to the end. -/
theorem Sound.advance (sound : scan.Sound tokens maxNgram) (more : scan.i < tokens.length) :
    ∃ next, scan.advance tokens maxNgram = some next /\ next.Sound tokens maxNgram /\
      2 * (tokens.length - next.i) + next.prevLps <
        2 * (tokens.length - scan.i) + scan.prevLps := by
  have bound := sound.below
  have inside := sound.border.1
  have isExpected := List.getElem?_eq_getElem (l := tokens) (Nat.lt_trans inside more)
  have isToken := List.getElem?_eq_getElem more
  unfold Scan.advance
  rw [isExpected, isToken]
  dsimp only
  split
  case isTrue same =>
    have isMatch : tokens[scan.prevLps]? = tokens[scan.i]? := by rw [isExpected, isToken, same]
    generalize isLps : (if scan.i < maxNgram then scan.lps.set scan.i (scan.prevLps + 1)
      else scan.lps) = lps
    have isNext : ∃ next, (if scan.prevLps + 1 = maxNgram then lps[maxNgram - 1]?
        else some (scan.prevLps + 1)) = some next /\ next <= scan.prevLps + 1 := by
      split
      case isTrue capped =>
        rcases sound.entry maxNgram (by omega) (Nat.le_refl _) (by omega) with
          ⟨next, isNext, isLongest⟩
        rw [if_neg (by omega)] at isLps
        exact ⟨next, isLps ▸ isNext, by have := isLongest.1.1; omega⟩
      · exact ⟨_, rfl, Nat.le_refl _⟩
    rcases isNext with ⟨next, isNext, small⟩
    rw [isNext]
    exact ⟨_, rfl, sound.accept isMatch isLps.symm more isNext, by dsimp only; omega⟩
  case isFalse different =>
    have mismatch : tokens[scan.prevLps]? ≠ tokens[scan.i]? := by
      rw [isExpected, isToken]
      exact fun same => different (Option.some.inj same)
    split
    case isTrue empty =>
      exact ⟨_, rfl, sound.skip more empty mismatch, by dsimp only; omega⟩
    case isFalse positive =>
      rcases sound.entry _ positive (Nat.le_of_lt bound) (Nat.le_of_lt inside) with
        ⟨next, isNext, isLongest⟩
      rw [isNext]
      have shorter := isLongest.1.1
      exact ⟨_, rfl, sound.fallBack mismatch isLongest, by dsimp only; omega⟩

/-- The loop ends with the invariant, at the end of the list. -/
theorem Sound.loop (sound : scan.Sound tokens maxNgram) (fuel : Nat)
    (enough : 2 * (tokens.length - scan.i) + scan.prevLps < fuel) :
    ∃ last, scan.loop tokens maxNgram fuel = some last /\ last.Sound tokens maxNgram /\
      last.i = tokens.length := by
  induction fuel generalizing scan with
  | zero => exact absurd enough (Nat.not_lt_zero _)
  | succ fuel ih =>
    rw [Scan.loop]
    split
    case isTrue more =>
      rcases sound.advance more with ⟨next, isNext, nextSound, closer⟩
      rw [isNext]
      exact ih nextSound (by omega)
    case isFalse done => exact ⟨scan, rfl, sound, by have := sound.within; omega⟩

end Scan

/-! ## What is proposed -/

/-- The last `n` tokens also occur at an earlier position. -/
def Occurs (tokens : List A) (n start : Nat) : Prop :=
  start < tokens.length - n /\ (tokens.drop start).take n = tokens.drop (tokens.length - n)

/-- The drafts are what followed the leftmost occurrence of the longest n-gram, as
far as there is room. -/
def IsProposal (tokens : List A) (minNgram maxNgram : Nat) (maxModelLen k : Int)
    (drafts : List A) : Prop :=
  ((∀ n start, minNgram <= n -> n <= maxNgram -> ¬ Occurs tokens n start) -> drafts = []) /\
  ∀ n start,
    IsGreatest {n | minNgram <= n /\ n <= maxNgram /\ ∃ start, Occurs tokens n start} n ->
    IsLeast {start | Occurs tokens n start} start ->
    drafts = (tokens.drop (start + n)).take (min k (maxModelLen - tokens.length)).toNat

/-- An earlier occurrence is a border of the reversed list. -/
theorem occurs_iff_border {tokens : List A} {position n : Nat} (inside : position < tokens.length) :
    Occurs tokens n (tokens.length - 1 - position) <->
      Border (tokens.reverse[·]?) (position + 1) n := by
  have earlier : tokens.length - 1 - position < tokens.length - n <-> n < position + 1 := by omega
  refine ⟨fun occurs => ⟨earlier.mp occurs.1, fun k below => ?_⟩,
    fun border => ⟨earlier.mpr border.1, List.ext_getElem? fun j => ?_⟩⟩
  · have bound := occurs.1
    have same := congrArg (·[n - 1 - k]?) occurs.2
    simp only [List.getElem?_take, List.getElem?_drop] at same
    rw [if_pos (by omega)] at same
    show tokens.reverse[k]? = tokens.reverse[position + 1 - n + k]?
    rw [List.getElem?_reverse (by omega), List.getElem?_reverse (by omega)]
    convert same.symm using 2 <;> omega
  · have bound := border.1
    rw [List.getElem?_take, List.getElem?_drop, List.getElem?_drop]
    split
    case isTrue below =>
      have same := border.2 (n - 1 - j) (by omega)
      dsimp only at same
      rw [List.getElem?_reverse (by omega), List.getElem?_reverse (by omega)] at same
      convert same.symm using 2 <;> omega
    case isFalse beyond => exact (List.getElem?_eq_none (by omega)).symm

section Found

variable {tokens : List A} {minNgram maxNgram : Nat} {last : Scan}
  (sound : last.Sound tokens.reverse maxNgram) (isEnd : last.i = tokens.length)
include sound isEnd

/-- What occurs earlier was found by the loop, and at the leftmost place. -/
theorem Scan.Sound.best_of_occurs {n start : Nat} (small : n <= maxNgram)
    (occurs : Occurs tokens n start) :
    n <= last.longestNgram /\
      (n ≠ 0 -> n = last.longestNgram -> tokens.length - 1 - last.position <= start) := by
  have bound := occurs.1
  have isStart : start = tokens.length - 1 - (tokens.length - 1 - start) := by omega
  rw [isStart, occurs_iff_border (by omega)] at occurs
  have best := sound.longest _ (by omega) n small occurs
  refine ⟨best.1, fun positive same => ?_⟩
  have early := best.2 positive same
  omega

/-- An n-gram that is shorter than wanted is none. -/
theorem Scan.Sound.nothing_proposed (tooShort : last.longestNgram < minNgram)
    (maxModelLen k : Int) :
    IsProposal tokens minNgram maxNgram maxModelLen k [] := by
  refine ⟨fun _ => rfl, fun n start greatest least => ?_⟩
  have small := (sound.best_of_occurs isEnd greatest.1.2.1 least.1).1
  have large := greatest.1.1
  omega

/-- What follows the n-gram of the loop is the proposal. -/
theorem Scan.Sound.proposed (positive : 1 <= minNgram)
    (longEnough : minNgram <= last.longestNgram) {maxModelLen k : Int}
    (room : 0 < min k (maxModelLen - tokens.length)) :
    IsProposal tokens minNgram maxNgram maxModelLen k
      ((tokens.drop (tokens.length - 1 - last.position + last.longestNgram)).take
        (min (min k (maxModelLen - tokens.length)) (tokens.length -
          (tokens.length - 1 - last.position + last.longestNgram : Nat))).toNat) := by
  rcases sound.found (by omega) with ⟨small, inside, isBorder⟩
  have occurs := (occurs_iff_border (by omega)).mpr isBorder
  refine ⟨fun nothing => absurd occurs (nothing _ _ longEnough small), ?_⟩
  intro n start greatest least
  have isLongest : n = last.longestNgram := by
    apply Nat.le_antisymm (sound.best_of_occurs isEnd greatest.1.2.1 least.1).1
    exact greatest.2 ⟨longEnough, small, _, occurs⟩
  subst isLongest
  have isStart : start = tokens.length - 1 - last.position := by
    apply Nat.le_antisymm (least.2 occurs)
    exact (sound.best_of_occurs isEnd small least.1).2 (by omega) rfl
  rw [<- isStart, List.take_eq_take_iff, List.length_drop]
  omega

end Found

/-- The loop ends, no index is out of bounds, and the proposal is the specified
one. -/
theorem findLongestMatchedNgramAndProposeTokens_isProposal [DecidableEq A] (tokens : List A)
    {minNgram maxNgram : Nat} (maxModelLen k : Int) (positive : 1 <= minNgram)
    (ordered : minNgram <= maxNgram) :
    ∃ drafts,
      findLongestMatchedNgramAndProposeTokens tokens minNgram maxNgram maxModelLen k =
          some drafts /\
        IsProposal tokens minNgram maxNgram maxModelLen k drafts := by
  unfold findLongestMatchedNgramAndProposeTokens
  dsimp only
  split
  case isTrue short =>
    refine ⟨[], rfl, fun _ => rfl, fun n start greatest least => ?_⟩
    have inside : start < tokens.length - n := least.1.1
    have large := greatest.1.1
    omega
  case isFalse enough =>
    split
    case isTrue full =>
      refine ⟨[], rfl, fun _ => rfl, fun n start _ _ => ?_⟩
      rw [Int.toNat_of_nonpos full, List.take_zero]
    case isFalse room =>
      have reversed : tokens.reverse.length = tokens.length := List.length_reverse
      have start : Scan.Sound tokens.reverse maxNgram ⟨List.replicate maxNgram 0, 0, 0, 0, 1⟩ :=
        .initial (by omega) (by omega)
      have ends := start.loop (2 * tokens.length) (by dsimp only; omega)
      rcases ends with ⟨last, isLast, sound, isEnd⟩
      rw [reversed] at isEnd
      rw [isLast, Option.map_some]
      split
      case isTrue tooShort => exact ⟨[], rfl, sound.nothing_proposed isEnd tooShort _ _⟩
      case isFalse longEnough =>
        exact ⟨_, rfl, sound.proposed isEnd positive (Nat.le_of_not_lt longEnough)
          (Int.lt_of_not_ge room)⟩

theorem ngram_of_two_tokens_proposed :
    findLongestMatchedNgramAndProposeTokens [1, 2, 3, 1, 2] 1 2 10 2 = some [3, 1] /\
      IsProposal [1, 2, 3, 1, 2] 1 2 10 2 [3, 1] := by
  have isSome : findLongestMatchedNgramAndProposeTokens [1, 2, 3, 1, 2] 1 2 10 2 = some [3, 1] := by
    decide
  rcases findLongestMatchedNgramAndProposeTokens_isProposal [1, 2, 3, 1, 2] 10 2 (Nat.le_refl 1)
    (Nat.le_succ 1) with ⟨drafts, isDrafts, proposal⟩
  cases isSome.symm.trans isDrafts
  exact ⟨isSome, proposal⟩

end Vllm.SpecDecode
