import Mathlib.Algebra.Order.Ring.Nat
import Mathlib.Algebra.Ring.Int.Defs
import Mathlib.Data.List.TakeDrop
import Mathlib.Tactic.Common

namespace Vllm.Reasoning

open List

/-!
# Splitting reasoning from content

The output is cut at its first end tag.  The streaming parser sees one delta at a
time and decides by the token ids which of them to cut.
-/

/-- The place of the first occurrence of a tag. -/
def place (tag text : List Char) : Option Nat :=
  (List.range (text.length + 1)).find? fun i => decide (tag <+: text.drop i)

variable {tag text : List Char} {i : Nat}

theorem place_fits (found : place tag text = some i) :
    i + tag.length <= text.length := by
  rcases List.find?_range_eq_some.mp found with ⟨occurs, inside, -⟩
  have fits := (of_decide_eq_true occurs).length_le
  rw [length_drop] at fits
  have bound := mem_range.mp inside
  omega

theorem exists_place (before behind : List Char)
    (occurs : text = before ++ (tag ++ behind)) : ∃ i, place tag text = some i := by
  apply Option.isSome_iff_exists.mp
  rw [place, List.find?_isSome]
  refine ⟨before.length, mem_range.mpr ?_, decide_eq_true ?_⟩
  · rw [occurs, length_append]
    omega
  rw [occurs, drop_left]
  exact prefix_append tag behind

theorem place_front : place tag (tag ++ text) = some 0 :=
  List.find?_range_eq_some.mpr ⟨decide_eq_true (prefix_append tag text),
    mem_range.mpr (Nat.succ_pos _), fun _ below => absurd below (Nat.not_lt_zero _)⟩

/-- The position of a tag in a text, or -1. -/
def find (text tag : List Char) : Int :=
  match place tag text with
  | some i => i
  | none => -1

/-- An index of a slice; a negative one counts from the end. -/
def sliceIndex (text : List Char) (i : Int) : Nat :=
  (if i < 0 then i + text.length else i).toNat

theorem sliceIndex_natCast : sliceIndex text i = i := by
  rw [sliceIndex, if_neg (by omega), Int.toNat_natCast]

theorem find_of_place (found : place tag text = some i) :
    find text tag = i := by
  rw [find, found]

/-- A piece of the answer: reasoning, content or both. -/
structure DeltaMessage where
  reasoning : Option (List Char) := none
  content : Option (List Char) := none

/-- The reasoning and the content of a message, empty where there is none. -/
def parts (message : Option DeltaMessage) : List Char × List Char :=
  ((message.bind (·.reasoning)).getD [], (message.bind (·.content)).getD [])

/-- The token ids of the tags, in a vocabulary with the texts of all tokens. -/
structure BaseThinkingReasoningParser (Token : Type) where
  text : Token -> List Char
  startTokenId : Token
  endTokenId : Token
  start_defined : text startTokenId ≠ []
  end_defined : text endTokenId ≠ []
  different : endTokenId ≠ startTokenId

namespace BaseThinkingReasoningParser

variable {Token : Type} (self : BaseThinkingReasoningParser Token)

def startToken : List Char := self.text self.startTokenId

def endToken : List Char := self.text self.endTokenId

/-- The text of some tokens. -/
def decode (tokens : List Token) : List Char := tokens.flatMap self.text

/-- Split a complete answer into reasoning and content. -/
def extractReasoning (modelOutput : List Char) : Option (List Char) × Option (List Char) :=
  let modelOutput := match place self.startToken modelOutput with
    | some i => modelOutput.drop (i + self.startToken.length)
    | none => modelOutput
  match place self.endToken modelOutput with
  | none => (some modelOutput, none)
  | some i =>
    let content := modelOutput.drop (i + self.endToken.length)
    (some (modelOutput.take i), if content = [] then none else some content)

/-- The text before a cut and the text behind the end tag there. -/
def cut (text : List Char) : Option Nat -> List Char × List Char
  | none => (text, [])
  | some i => (text.take i, text.drop (i + self.endToken.length))

section

variable {self} {delta : List Token}

theorem decode_append (tokens later : List Token) :
    self.decode (tokens ++ later) = self.decode tokens ++ self.decode later :=
  flatMap_append

theorem decode_start : self.decode (self.startTokenId :: delta) =
    self.startToken ++ self.decode delta := rfl

theorem not_single (more : delta ≠ []) : ¬ (self.startTokenId :: delta = [self.startTokenId] \/
    self.startTokenId :: delta = [self.endTokenId]) := by
  intro single
  rw [cons_eq_cons, cons_eq_cons] at single
  exact more (single.elim And.right And.right)

theorem place_of_mem (ends : self.endTokenId ∈ delta) :
    ∃ i, place self.endToken (self.decode delta) = some i := by
  rcases append_of_mem ends with ⟨before, behind, rfl⟩
  exact exists_place (self.decode before) (self.decode behind) (by simp [decode, endToken])

/-- Two cuts that fit give the same parts only at the same place. -/
theorem cut_inj {a b : Option Nat}
    (left : ∀ i, a = some i -> i + self.endToken.length <= text.length)
    (right : ∀ i, b = some i -> i + self.endToken.length <= text.length) :
    self.cut text a = self.cut text b <-> a = b := by
  have positive : 0 < self.endToken.length := length_pos_iff.mpr self.end_defined
  refine ⟨fun same => ?_, fun same => by rw [same]⟩
  have lengths := congrArg (·.1.length) same
  rcases a with _ | i
  · rcases b with _ | j
    · rfl
    have fits := right j rfl
    simp only [cut, length_take] at lengths
    omega
  have fits := left i rfl
  rcases b with _ | j
  · simp only [cut, length_take] at lengths
    omega
  have fits' := right j rfl
  simp only [cut, length_take] at lengths
  rw [show i = j by omega]

theorem cut_total {c : Option Nat}
    (fits : ∀ i, c = some i -> i + self.endToken.length <= text.length) :
    (self.cut text c).1.length + (self.cut text c).2.length +
      (if c = none then 0 else self.endToken.length) = text.length := by
  cases c with
  | none => rfl
  | some i =>
    have inside := fits i rfl
    simp only [cut, length_take, length_drop, reduceCtorEq, if_false]
    omega

theorem getD_content : (if text = [] then none else some text).getD [] = text := by
  split
  case isTrue empty => exact empty.symm
  case isFalse => rfl

theorem extractReasoning_start :
    ((self.extractReasoning (self.startToken ++ text)).1.getD [],
      (self.extractReasoning (self.startToken ++ text)).2.getD []) =
    self.cut text (place self.endToken text) := by
  simp only [extractReasoning, place_front, Nat.zero_add, drop_left]
  cases place self.endToken text with
  | none => rfl
  | some i => exact Prod.ext rfl getD_content

end

variable [DecidableEq Token]

/-- The part of the answer that a delta brings, or nothing. -/
def extractReasoningStreaming (deltaText : List Char)
    (previousTokenIds deltaTokenIds : List Token) : Option DeltaMessage :=
  let endIndex := find deltaText self.endToken
  let content := deltaText.drop (sliceIndex deltaText (endIndex + self.endToken.length))
  let content := if content = [] then none else some content
  if deltaTokenIds = [self.startTokenId] \/ deltaTokenIds = [self.endTokenId] then none
  else if self.startTokenId ∈ previousTokenIds then
    if self.endTokenId ∈ deltaTokenIds then
      some { reasoning := some (deltaText.take (sliceIndex deltaText endIndex)), content }
    else if self.endTokenId ∈ previousTokenIds then some { content := some deltaText }
    else some { reasoning := some deltaText }
  else if self.startTokenId ∈ deltaTokenIds then
    if self.endTokenId ∈ deltaTokenIds then
      some {
        reasoning := some ((deltaText.take (sliceIndex deltaText endIndex)).drop
          (sliceIndex deltaText (find deltaText self.startToken + self.startToken.length)))
        content
      }
    else some { reasoning := some deltaText }
  else some { content := some deltaText }

/-- The reasoning and the content that a delta brings. -/
def said (previous delta : List Token) : List Char × List Char :=
  parts (self.extractReasoningStreaming (self.decode delta) previous delta)

/-- The reasoning and the content of all messages, one for each delta. -/
def streamed (previous : List Token) : List (List Token) -> List Char × List Char
  | [] => ([], [])
  | delta :: deltas =>
    let now := self.said previous delta
    let later := streamed (previous ++ delta) deltas
    (now.1 ++ later.1, now.2 ++ later.2)

/-- The deltas give the reasoning and the content of the whole text. -/
def SplitsAlike (deltas : List (List Token)) : Prop :=
  let whole := self.extractReasoning (self.decode deltas.flatten)
  self.streamed [] deltas = (whole.1.getD [], whole.2.getD [])

/-- Where the deltas are cut: at the first end tag of the delta with the end
token. -/
def cutPlace : List (List Token) -> Option Nat
  | [] => none
  | delta :: deltas =>
    if self.endTokenId ∈ delta then place self.endToken (self.decode delta)
    else (cutPlace deltas).map ((self.decode delta).length + ·)

variable {self} {previous delta tail : List Token} {deltas : List (List Token)}

theorem cutPlace_fits (found : self.cutPlace deltas = some i) :
    self.endTokenId ∈ deltas.flatten /\
      i + self.endToken.length <= (self.decode deltas.flatten).length := by
  induction deltas generalizing i with
  | nil => cases found
  | cons delta deltas ih =>
    rw [flatten_cons, decode_append, length_append]
    rw [cutPlace] at found
    split at found
    case isTrue ends =>
      have fits := place_fits found
      exact ⟨mem_append_left _ ends, by omega⟩
    case isFalse =>
      rcases Option.map_eq_some_iff.mp found with ⟨j, later, rfl⟩
      rcases ih later with ⟨ends, fits⟩
      exact ⟨mem_append_right _ ends, by omega⟩

section

variable (begun : self.startTokenId ∈ previous)
include begun

/-- A delta without tags belongs to the part that the tokens before it open. -/
theorem parts_plain (noStart : self.startTokenId ∉ delta) (noEnd : self.endTokenId ∉ delta) :
    self.said previous delta = if self.endTokenId ∈ previous then ([], self.decode delta)
      else (self.decode delta, []) := by
  have several : ¬ (delta = [self.startTokenId] \/ delta = [self.endTokenId]) := by
    rintro (rfl | rfl)
    · exact noStart (mem_singleton_self _)
    · exact noEnd (mem_singleton_self _)
  rw [said, extractReasoningStreaming, if_neg several, if_pos begun, if_neg noEnd]
  split
  · rfl
  · rfl

theorem parts_end (noStart : self.startTokenId ∉ delta) (ends : self.endTokenId ∈ delta) :
    self.said previous delta =
      self.cut (self.decode delta) (place self.endToken (self.decode delta)) := by
  by_cases single : delta = [self.endTokenId]
  · have alone : self.decode delta = self.endToken ++ [] := by
      rw [single, decode, flatMap_singleton, endToken, append_nil]
    rw [said, extractReasoningStreaming, if_pos (Or.inr single), alone, place_front, cut,
      Nat.zero_add, drop_left]
    rfl
  have several : ¬ (delta = [self.startTokenId] \/ delta = [self.endTokenId]) := by
    rintro (rfl | same)
    · exact noStart (mem_singleton_self _)
    · exact single same
  rcases place_of_mem ends with ⟨i, found⟩
  rw [said, extractReasoningStreaming, if_neg several, if_pos begun, if_pos ends,
    find_of_place found, <- Nat.cast_add, sliceIndex_natCast, sliceIndex_natCast, found]
  exact Prod.ext rfl getD_content

theorem streamed_behind (ended : self.endTokenId ∈ previous)
    (noStart : self.startTokenId ∉ deltas.flatten)
    (noEnd : self.endTokenId ∉ deltas.flatten) :
    self.streamed previous deltas = ([], self.decode deltas.flatten) := by
  induction deltas generalizing previous with
  | nil => rfl
  | cons delta deltas ih =>
    rw [flatten_cons, mem_append, not_or] at noStart noEnd
    rw [streamed, parts_plain begun noStart.1 noEnd.1, if_pos ended,
      ih (mem_append_left delta begun) (mem_append_left delta ended) noStart.2 noEnd.2,
      flatten_cons, decode_append]
    rfl

/-- Once the start token is there, the deltas are cut at the delta with the end
token. -/
theorem streamed_thinking (unended : self.endTokenId ∉ previous)
    (noStart : self.startTokenId ∉ deltas.flatten)
    (oneEnd : deltas.flatten.count self.endTokenId <= 1) :
    self.streamed previous deltas =
      self.cut (self.decode deltas.flatten) (self.cutPlace deltas) := by
  induction deltas generalizing previous with
  | nil => rfl
  | cons delta deltas ih =>
    rw [flatten_cons, mem_append, not_or] at noStart
    rw [flatten_cons, count_append] at oneEnd
    rw [streamed, cutPlace, flatten_cons, decode_append]
    by_cases ends : self.endTokenId ∈ delta
    · have one := count_pos_iff.mpr ends
      rcases place_of_mem ends with ⟨i, found⟩
      have fits := place_fits found
      rw [parts_end begun noStart.1 ends, if_pos ends, found,
        streamed_behind (mem_append_left delta begun) (mem_append_right previous ends)
          noStart.2 (count_eq_zero.mp (by omega))]
      simp only [cut, append_nil]
      rw [take_append_of_le_length (by omega), drop_append_of_le_length fits]
    have open' : self.endTokenId ∉ previous ++ delta := by
      rw [mem_append, not_or]
      exact ⟨unended, ends⟩
    rw [parts_plain begun noStart.1 ends, if_neg unended, if_neg ends,
      ih (mem_append_left delta begun) open' noStart.2 (by omega)]
    cases self.cutPlace deltas with
    | none => rfl
    | some i =>
      simp only [cut, Option.map_some, nil_append]
      rw [take_append, drop_append]
      simp [Nat.add_assoc]

end

/-- Both tags are in the first delta. -/
theorem said_both (ends : self.endTokenId ∈ tail)
    (found : place self.endToken (self.decode (self.startTokenId :: tail)) = some i) :
    self.said [] (self.startTokenId :: tail) =
      (((self.startToken ++ self.decode tail).take i).drop self.startToken.length,
        (self.startToken ++ self.decode tail).drop (i + self.endToken.length)) := by
  rw [said, extractReasoningStreaming, if_neg (not_single (ne_nil_of_mem ends)), if_neg not_mem_nil,
    if_pos mem_cons_self, if_pos (mem_cons_of_mem _ ends), find_of_place found, decode_start,
    find_of_place place_front, <- Nat.cast_add, <- Nat.cast_add, Nat.zero_add,
    sliceIndex_natCast, sliceIndex_natCast, sliceIndex_natCast]
  exact Prod.ext rfl getD_content

theorem cutPlace_eq_none
    (absent : place self.endToken (self.decode (tail ++ deltas.flatten)) = none) :
    self.cutPlace deltas = none := by
  by_contra early
  rcases Option.ne_none_iff_exists'.mp early with ⟨i, found⟩
  rcases place_of_mem (mem_append_right tail (cutPlace_fits found).1) with ⟨q, whole⟩
  rw [absent] at whole
  cases whole

/-- The deltas split like the whole text exactly when the start token comes alone
or together with the end token, and the first end tag of the text is the first
one in the delta with the end token. -/
theorem splitsAlike_iff (noStart : self.startTokenId ∉ tail ++ deltas.flatten)
    (oneEnd : (tail ++ deltas.flatten).count self.endTokenId <= 1) :
    self.SplitsAlike ((self.startTokenId :: tail) :: deltas) <->
      (tail = [] \/ self.endTokenId ∈ tail) /\
        self.cutPlace ((self.startTokenId :: tail) :: deltas) =
          (place self.endToken (self.decode (tail ++ deltas.flatten))).map
            (self.startToken.length + ·) := by
  have split : self.decode ((self.startTokenId :: tail) :: deltas).flatten =
      self.startToken ++ self.decode (tail ++ deltas.flatten) := by
    rw [flatten_cons, cons_append]
    rfl
  have begun : self.startTokenId ∈ [] ++ self.startTokenId :: tail := mem_cons_self
  have positive : 0 < self.startToken.length := length_pos_iff.mpr self.start_defined
  rw [SplitsAlike, split, extractReasoning_start, streamed, cutPlace]
  rw [mem_append, not_or] at noStart
  rw [count_append] at oneEnd
  by_cases ends : self.endTokenId ∈ tail
  · have one := count_pos_iff.mpr ends
    rcases place_of_mem (mem_cons_of_mem self.startTokenId ends) with ⟨p, found⟩
    rcases place_of_mem (mem_append_left deltas.flatten ends) with ⟨q, whole⟩
    have fits := place_fits found
    have wholeFits := place_fits whole
    rw [said_both ends found, streamed_behind begun (mem_cons_of_mem _ ends) noStart.2
      (count_eq_zero.mp (by omega)), if_pos (mem_cons_of_mem _ ends), found, whole,
      Option.map_some, Option.some.injEq, decode_append]
    rw [decode_start, length_append] at fits
    rw [decode_append, length_append] at wholeFits
    constructor
    · intro same
      have lengths := congrArg (·.2.length) same
      simp only [cut, length_append, length_drop] at lengths
      exact ⟨Or.inr ends, by omega⟩
    rintro ⟨-, rfl⟩
    rw [Nat.add_assoc, take_length_add_append, drop_left, drop_length_add_append,
      append_nil, cut, take_append_of_le_length (by omega),
      drop_append_of_le_length (by omega)]
  have noEnd : self.endTokenId ∉ self.startTokenId :: tail :=
    not_mem_cons_of_ne_of_not_mem self.different ends
  rw [streamed_thinking begun noEnd noStart.2 (by omega), if_neg noEnd]
  by_cases single : tail = []
  · have message : self.said [] (self.startTokenId :: tail) = ([], []) := by
      rw [single, said, extractReasoningStreaming, if_pos (Or.inl rfl)]
      rfl
    have onlyTag : self.decode [self.startTokenId] = self.startToken := flatMap_singleton _ _
    rw [message, single, onlyTag]
    refine (cut_inj (fun i found => (cutPlace_fits found).2) fun i => place_fits).trans ?_
    rw [(Option.map_injective (add_right_injective _)).eq_iff]
    exact (and_iff_right (Or.inl rfl)).symm
  refine ⟨fun same => ?_, fun alone => absurd alone.1 (not_or_intro single ends)⟩
  rw [said, extractReasoningStreaming, if_neg (not_single single), if_neg not_mem_nil,
    if_pos mem_cons_self, if_neg noEnd, decode_start] at same
  have total := congrArg (fun halves => halves.1.length + halves.2.length) same
  have early := cut_total fun i (found : self.cutPlace deltas = some i) => (cutPlace_fits found).2
  have whole := cut_total fun i (found : place self.endToken (self.decode
    (tail ++ deltas.flatten)) = some i) => place_fits found
  simp only [parts, Option.bind_some, Option.getD_some, Option.getD_none, length_append,
    nil_append] at total
  rw [decode_append, length_append, <- decode_append] at whole
  split at whole
  case isTrue absent =>
    rw [if_pos (cutPlace_eq_none absent)] at early
    omega
  case isFalse =>
    split at early
    · omega
    · omega

def charParser : BaseThinkingReasoningParser Char where
  text token := [token]
  startTokenId := '<'
  endTokenId := '>'
  start_defined := cons_ne_nil _ _
  end_defined := cons_ne_nil _ _
  different := by decide

theorem start_alone_splits : charParser.SplitsAlike [['<'], ['a', '>', 'b']] :=
  (splitsAlike_iff (by decide) (by decide)).mpr ⟨Or.inl rfl, by decide⟩

/-- The start tag and a token in one delta: the tag is streamed as reasoning. -/
theorem start_tag_streamed :
    charParser.streamed [] [['<', 'a']] = (['<', 'a'], []) /\
      charParser.extractReasoning ['<', 'a'] = (some ['a'], none) /\
      ¬ charParser.SplitsAlike [['<', 'a']] := by
  refine ⟨by decide, by decide, ?_⟩
  rw [SplitsAlike]
  decide

end BaseThinkingReasoningParser
end Vllm.Reasoning
