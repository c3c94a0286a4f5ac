/-
This file says what an exact journal is, and what a rule keeps so that the journal of a run becomes
one. Two things are carried through the rules. On the way down, the tokens in front of a call lead
to a hole for what the rule is to read, and the depth is the number of levels around that hole. On
the way up, a call has come to what the rule comes to on the tokens from the index on, and the index
is where that rule stopped. What a journal says of a call follows from the two: the hole tells how
much is open, and the rule reads well-shaped trees only, each with its height.
-/

import LoxFront.Proofs.Checked.Calls
import LoxFront.Proofs.Openers

namespace LoxFront.Checked

open Grammar (Built Exact Leads Outcome Rule Subtree isOneOf ruleAt)
open Recorded (call carryOut quietly quietly_eq)

/-! ### What is exact -/

/-- The tier of the trees that a rule reads. -/
def RuleName.tier : RuleName → Nat
  | expression | equality => 0
  | comparison => 1
  | term => 2
  | factor => 3
  | unary | primary => 4
  | nested inner => inner.tier

/-- The rule on lists of tokens that a rule comes to at a depth. It has the levels to spare that are
left below the limit. -/
def RuleName.plain (rule : RuleName) (depth : Nat) : Rule :=
  ruleAt rule.tier (heightLimit + 1 - (depth + rule.opensLevel.toNat))

/-- What holds when a rule is called, given the tokens before the first end mark. -/
structure Call.Entered (front : List Token) (call : Call) : Prop where
  inside : call.entry.current ≤ front.length
  /-- The depth is the number of rules with a level of their own that are being carried out. -/
  depth_eq : call.entry.depth = call.callers.countP RuleName.opensLevel
  /-- That is the number of unary operators and parentheses that are open at the index. Where the
  rule is called to open a level, the opener of that level has just been read. -/
  length_openers : (openers (front.take call.entry.current)).length =
    call.entry.depth + call.rule.opensLevel.toNat
  shallow : call.entry.depth ≤ heightLimit

/-- What holds when a call has come to something. -/
structure Call.Returned (sentence : Sentence) (call : Call) (outcome : Except SyntaxError Subtree)
    (exit : Reader) : Prop where
  depth_eq : exit.depth = call.entry.depth
  forward : call.entry.current ≤ exit.current
  inside : exit.current ≤ sentence.tokens.length
  /-- The call comes to what its rule comes to on the tokens from the index on. -/
  agrees : Agrees sentence.tokens sentence.stop call.entry.current call.entry.depth
    (some (outcome, exit))
    (call.rule.plain call.entry.depth (sentence.tokens.drop call.entry.current))
  consumed : ∀ tree, outcome = .ok tree → call.entry.current < exit.current
  height_eq : ∀ tree, outcome = .ok tree → tree.height = tree.expr.height
  small : ∀ tree, outcome = .ok tree → tree.height ≤ heightLimit

/-- What has happened between two indices. Every call in it is exact and has come to something, and
the index has never gone back. -/
structure Account (sentence : Sentence) (first last : Nat) (events : List Event) : Prop where
  passed : first ≤ last
  within : ∀ event ∈ events, first ≤ event.reader.current ∧ event.reader.current ≤ last
  ordered : events.Pairwise fun earlier later => earlier.reader.current ≤ later.reader.current
  entered : ∀ call, .called call ∈ events → call.Entered sentence.tokens
  returned : ∀ call outcome exit, .returned call outcome exit ∈ events →
    call.Returned sentence outcome exit
  answered : ∀ call, .called call ∈ events ↔ ∃ outcome exit, .returned call outcome exit ∈ events

namespace Account

variable {sentence : Sentence} {first middle last : Nat} {events more : List Event}

theorem nil (le : first ≤ last) : Account sentence first last [] where
  passed := le
  within _ member := by cases member
  ordered := .nil
  entered _ member := by cases member
  returned _ _ _ member := by cases member
  answered _ := by simp only [List.not_mem_nil, exists_false]

/-- What has happened first, and what has happened from there. -/
theorem append (account : Account sentence first middle events)
    (further : Account sentence middle last more) :
    Account sentence first last (events ++ more) where
  passed := Nat.le_trans account.passed further.passed
  within event member := by
    rcases List.mem_append.mp member with member | member
    · have ⟨behind, before⟩ := account.within event member
      exact ⟨behind, Nat.le_trans before further.passed⟩
    · have ⟨behind, before⟩ := further.within event member
      exact ⟨Nat.le_trans account.passed behind, before⟩
  ordered := by
    refine List.pairwise_append.mpr ⟨account.ordered, further.ordered, ?_⟩
    intro earlier member later memberLater
    exact Nat.le_trans (account.within earlier member).2 (further.within later memberLater).1
  entered call member :=
    (List.mem_append.mp member).elim (account.entered call) (further.entered call)
  returned call outcome exit member :=
    (List.mem_append.mp member).elim (account.returned call outcome exit)
      (further.returned call outcome exit)
  answered call := by
    simp only [List.mem_append, exists_or]
    exact or_congr (account.answered call) (further.answered call)

/-- A call around what has happened in it. -/
theorem call {call : Call} {outcome : Except SyntaxError Subtree} {exit : Reader}
    (entered : call.Entered sentence.tokens) (returned : call.Returned sentence outcome exit)
    (account : Account sentence call.entry.current exit.current events) :
    Account sentence call.entry.current exit.current
      (.called call :: (events ++ [.returned call outcome exit])) where
  passed := account.passed
  within event member := by
    rcases List.mem_cons.mp member with rfl | member
    · exact ⟨Nat.le_refl _, account.passed⟩
    rcases List.mem_append.mp member with member | member
    · exact account.within event member
    · obtain rfl := List.mem_singleton.mp member
      exact ⟨account.passed, Nat.le_refl _⟩
  ordered := by
    have before : ∀ event ∈ events, event.reader.current ≤ exit.current :=
      fun event member => (account.within event member).2
    refine List.pairwise_cons.mpr ⟨fun event member => ?_, List.pairwise_append.mpr
      ⟨account.ordered, List.pairwise_singleton _ _, fun earlier member later memberLater => ?_⟩⟩
    · rcases List.mem_append.mp member with member | member
      · exact (account.within event member).1
      · obtain rfl := List.mem_singleton.mp member
        exact account.passed
    · obtain rfl := List.mem_singleton.mp memberLater
      exact before earlier member
  entered other member := by
    rcases List.mem_cons.mp member with equal | member
    · cases equal
      exact entered
    rcases List.mem_append.mp member with member | member
    · exact account.entered other member
    · cases List.mem_singleton.mp member
  returned other outcome' exit' member := by
    rcases List.mem_cons.mp member with equal | member
    · cases equal
    rcases List.mem_append.mp member with member | member
    · exact account.returned other outcome' exit' member
    · cases List.mem_singleton.mp member
      exact returned
  answered other := by
    have inner := account.answered other
    simp only [List.mem_cons, List.mem_append, List.not_mem_nil, or_false, Event.called.injEq,
      Event.returned.injEq, reduceCtorEq, false_or]
    constructor
    · rintro (rfl | member)
      · exact ⟨outcome, exit, Or.inr ⟨rfl, rfl, rfl⟩⟩
      · obtain ⟨result, later, memberLater⟩ := inner.mp member
        exact ⟨result, later, Or.inl memberLater⟩
    · rintro ⟨result, later, member | ⟨rfl, -, -⟩⟩
      · exact Or.inr (inner.mpr ⟨result, later, member⟩)
      · exact Or.inl rfl

end Account

/-! ### What a rule keeps -/

/-- Where a rule can be called: the tokens in front lead to a hole for what it reads, at as many
levels as are open. -/
structure Due (sentence : Sentence) (rule : RuleName) (callers : List RuleName)
    (current depth : Nat) : Prop where
  inside : current ≤ sentence.tokens.length
  shallow : depth ≤ heightLimit
  counted : callers.countP RuleName.opensLevel = depth
  leads : Leads 0 (sentence.tokens.take current) (depth + rule.opensLevel.toNat) rule.tier

/-- What an attempt comes to agrees with what a rule comes to, and what has happened by then is put
down behind what happened earlier. -/
inductive Conducted (sentence : Sentence) (first depth : Nat) (earlier : List Event) :
    Option (Except SyntaxError Subtree × Journal) → Outcome → Prop
  | intro {answer : Except SyntaxError Subtree} {last : Nat} {events : List Event}
      {outcome : Outcome}
      (agrees : Agrees sentence.tokens sentence.stop first depth
        (some (answer, { current := last, depth })) outcome)
      (account : Account sentence first last events) (inside : last ≤ sentence.tokens.length) :
      Conducted sentence first depth earlier
        (some (answer, { reader := { current := last, depth }, events := earlier ++ events }))
        outcome

/-- Wherever a rule can be called, the attempt comes to what the rule comes to. -/
def Conducts (sentence : Sentence) (callers : List RuleName) (rule : RuleName) (depth : Nat)
    (attempt : Recorded Subtree) : Prop :=
  ∀ current earlier, Due sentence rule callers current depth →
    Conducted sentence current depth earlier
      (attempt { reader := { current, depth }, events := earlier })
      (rule.plain depth (sentence.tokens.drop current))

/-- Calls of a rule come to what the rule comes to, as long as so much is allowed. -/
def ConductsFrom (tokens : List Token) (sentence : Sentence) (need : Nat) (rule : RuleName)
    (depth : Nat) : Prop :=
  ∀ allowed, need ≤ allowed → ∀ callers,
    Conducts sentence callers rule depth (call tokens allowed callers rule)

section Conducted

variable {tokens : List Token} {sentence : Sentence} {first middle last current depth : Nat}
  {earlier events : List Event} {outcome : Outcome}

/-- What happens behind something that has happened happens behind what was before it. -/
theorem Conducted.after {came : Option (Except SyntaxError Subtree × Journal)}
    (conducted : Conducted sentence middle depth (earlier ++ events) came outcome)
    (account : Account sentence first middle events) :
    Conducted sentence first depth earlier came outcome := by
  obtain ⟨agrees, further, inside⟩ := conducted
  rw [List.append_assoc]
  exact .intro (agrees.of_le account.passed) (account.append further) inside

theorem Conducted.of_le {came : Option (Except SyntaxError Subtree × Journal)}
    (conducted : Conducted sentence middle depth earlier came outcome) (le : first ≤ middle) :
    Conducted sentence first depth earlier came outcome := by
  rw [← List.append_nil earlier] at conducted
  exact conducted.after (.nil le)

/-- Where nothing is put down, it is enough to agree with the rule. -/
theorem Conducted.of_agrees {answer : Except SyntaxError Subtree}
    (agrees : Agrees sentence.tokens sentence.stop first depth
      (some (answer, { current := last, depth })) outcome)
    (passed : first ≤ last) (inside : last ≤ sentence.tokens.length) :
    Conducted sentence first depth earlier
      (some (answer, { reader := { current := last, depth }, events := earlier })) outcome := by
  have conducted : Conducted sentence first depth earlier
      (some (answer, { reader := { current := last, depth }, events := earlier ++ [] })) outcome :=
    .intro agrees (.nil passed) inside
  rwa [List.append_nil] at conducted

/-- If two attempts come to what two rules come to, so do they one after the other. -/
theorem Conducted.bind {attempt : Recorded Subtree} {second : Subtree → Recorded Subtree}
    {secondRule : Subtree × List Token → Outcome} {journal : Journal}
    (conducted : Conducted sentence first depth earlier (attempt journal) outcome)
    (behind : ∀ tree last later, outcome = .ok (tree, sentence.tokens.drop last) → first ≤ last →
      last ≤ sentence.tokens.length →
      Conducted sentence last depth later
        (second tree { reader := { current := last, depth }, events := later })
        (secondRule (tree, sentence.tokens.drop last))) :
    Conducted sentence first depth earlier ((attempt >>= second) journal)
      (outcome >>= secondRule) := by
  generalize attempted : attempt journal = came at conducted
  obtain ⟨agrees, account, inside⟩ := conducted
  cases agrees with
  | ok =>
    rw [Recorded.bind_of_ok attempted]
    exact (behind _ _ _ rfl account.passed inside).after account
  | error =>
    rw [Recorded.bind_of_error attempted]
    exact .intro .error account inside

/-! ### Steps in which no rule is called -/

/-- The attempt comes to something, at the same depth and at no index further back or behind the
tokens. -/
def Settles (attempt : Attempt Subtree) (length current depth : Nat) : Prop :=
  ∃ answer last, attempt { current, depth } = some (answer, { current := last, depth }) ∧
    current ≤ last ∧ last ≤ length

/-- An attempt in which no rule is called comes to what it agrees with. -/
theorem Settles.conducted {attempt : Attempt Subtree}
    (settles : Settles attempt sentence.tokens.length current depth)
    (agrees : Agrees sentence.tokens sentence.stop current depth
      (attempt { current, depth }) outcome) :
    Conducted sentence current depth earlier
      (quietly attempt { reader := { current, depth }, events := earlier }) outcome := by
  obtain ⟨answer, last, came, passed, inside⟩ := settles
  rw [came] at agrees
  rw [quietly_eq came]
  exact .of_agrees agrees passed inside

theorem settles_complete (inside : current ≤ sentence.tokens.length) (expr : Expr) (height : Nat)
    (origin : Token) :
    Settles (complete expr height origin) sentence.tokens.length current depth := by
  rw [Settles, complete]
  split
  · exact ⟨_, current, fail_eq .tooHigh origin _, Nat.le_refl _, inside⟩
  · exact ⟨_, current, rfl, Nat.le_refl _, inside⟩

section Delimited

variable (delimits : Delimits tokens sentence.tokens sentence.stop)

include delimits

theorem settles_failNext (inside : current ≤ sentence.tokens.length) (cause : SyntaxError.Cause) :
    Settles (failNext tokens cause) sentence.tokens.length current depth := by
  obtain ⟨token, found⟩ : ∃ token, tokens[current]? = some token := by
    rcases next_cases delimits inside with ⟨token, found, -⟩ | ⟨token, found, -⟩
    · exact ⟨token, found⟩
    · exact ⟨token, found⟩
  refine ⟨.error (.about cause token), current, ?_, Nat.le_refl _, inside⟩
  rw [failNext, Attempt.bind_of_ok (peek_eq found), fail_eq]

theorem settles_closeBehind (inside : current ≤ sentence.tokens.length) (opening : Token)
    (body : Subtree) :
    Settles (closeBehind tokens opening body) sentence.tokens.length current depth := by
  have unclosed : Settles (failNext tokens .unclosedParenthesis) sentence.tokens.length current
      depth := settles_failNext delimits inside .unclosedParenthesis
  rw [Settles, closeBehind]
  rcases next_cases delimits inside with
    ⟨closing, found, -, below, -⟩ | ⟨mark, found, isEnd, -, -⟩
  · by_cases closes : isOneOf [.rightParen] closing = true
    · rw [Attempt.bind_of_ok (advanceIf_of_isOneOf found closes)]
      obtain ⟨answer, last, came, passed, within⟩ :=
        settles_complete below (.grouping body.expr) (body.height + 1) opening
      exact ⟨answer, last, came, Nat.le_of_succ_le passed, within⟩
    · rw [Attempt.bind_of_ok (advanceIf_of_other found closes)]
      exact unclosed
  · rw [Attempt.bind_of_ok (advanceIf_of_other found (not_isOneOf_of_isEnd isEnd))]
    exact unclosed

end Delimited

end Conducted

/-! ### Calls -/

theorem RuleName.tier_le (rule : RuleName) : rule.tier ≤ 4 := by
  induction rule with
  | expression | equality | comparison | term | factor | unary | primary => decide
  | nested inner inductionHypothesis => exact inductionHypothesis

theorem take_eq_of_drop_eq {front between : List Token} {first last : Nat}
    (split : front.drop first = between ++ front.drop last) :
    front.take last = front.take first ++ between := by
  have whole : front.take last ++ front.drop last =
      (front.take first ++ between) ++ front.drop last := by
    rw [List.take_append_drop, List.append_assoc, ← split, List.take_append_drop]
  exact List.append_cancel_right whole

section Calls

variable {tokens : List Token} {sentence : Sentence} {rule operand : RuleName}
  {callers : List RuleName} {allowed need current last depth : Nat} {earlier : List Event}

theorem exact_plain (rule : RuleName) (depth : Nat) : ∃ levels,
    Exact (rule.plain depth) rule.tier levels :=
  ⟨_, Grammar.exact_ruleAt rule.tier_le _⟩

/-- What a rule reads from one index on to another are the tokens between them, and there is at
least one. -/
theorem exists_built {tree : Subtree} (inside : current ≤ sentence.tokens.length)
    (read : rule.plain depth (sentence.tokens.drop current) =
      .ok (tree, sentence.tokens.drop last)) (within : last ≤ sentence.tokens.length) :
    ∃ taken, Built rule.tier taken tree ∧ current < last ∧
      sentence.tokens.take last = sentence.tokens.take current ++ taken := by
  obtain ⟨levels, exact⟩ := exact_plain rule depth
  obtain ⟨taken, split, built, -⟩ := exact.sound _ _ _ read
  refine ⟨taken, built, ?_, take_eq_of_drop_eq split⟩
  have some : 0 < taken.length := List.length_pos_iff.mpr built.yields.ne_nil
  have lengths := congrArg List.length split
  rw [List.length_append, List.length_drop, List.length_drop] at lengths
  omega

theorem Due.entered (due : Due sentence rule callers current depth) :
    Call.Entered sentence.tokens { rule, callers, entry := { current, depth } } where
  inside := due.inside
  depth_eq := due.counted.symm
  length_openers := length_openers_of_leads due.leads
  shallow := due.shallow

theorem Due.returned (due : Due sentence rule callers current depth)
    {answer : Except SyntaxError Subtree}
    (agrees : Agrees sentence.tokens sentence.stop current depth
      (some (answer, { current := last, depth }))
      (rule.plain depth (sentence.tokens.drop current)))
    (passed : current ≤ last) (inside : last ≤ sentence.tokens.length) :
    Call.Returned sentence { rule, callers, entry := { current, depth } } answer
      { current := last, depth } := by
  have complete : ∀ tree, answer = .ok tree →
      current < last ∧ tree.height = tree.expr.height ∧ tree.height ≤ heightLimit := by
    rintro tree rfl
    generalize read : rule.plain depth (sentence.tokens.drop current) = outcome at agrees
    cases agrees
    obtain ⟨taken, built, consumed, -⟩ := exists_built due.inside read inside
    exact ⟨consumed, built.height, built.small⟩
  exact
    { depth_eq := rfl
      forward := passed
      inside
      agrees
      consumed := fun tree equal => (complete tree equal).1
      height_eq := fun tree equal => (complete tree equal).2.1
      small := fun tree equal => (complete tree equal).2.2 }

/-- If carrying out a rule comes to what the rule comes to, so does a call of it, and what happens
in between is put down between the call and what it comes to. -/
theorem exists_call_eq (due : Due sentence rule callers current depth)
    (body : Conducted sentence current depth
      (earlier ++ [.called { rule, callers, entry := { current, depth } }])
      (carryOut tokens (call tokens allowed (rule :: callers)) allowed rule
        { reader := { current, depth },
          events := earlier ++ [.called { rule, callers, entry := { current, depth } }] })
      (rule.plain depth (sentence.tokens.drop current))) :
    ∃ outcome exit events,
      call tokens (allowed + 1) callers rule
        { reader := { current, depth }, events := earlier } = some (outcome,
          { reader := exit,
            events := earlier ++ (.called { rule, callers, entry := { current, depth } } ::
              (events ++
                [.returned { rule, callers, entry := { current, depth } } outcome exit])) }) ∧
      Call.Returned sentence { rule, callers, entry := { current, depth } } outcome exit ∧
      Account sentence current exit.current events := by
  generalize came : carryOut tokens _ allowed rule _ = result at body
  obtain ⟨agrees, account, inside⟩ := body
  refine ⟨_, _, _, ?_, due.returned agrees account.passed inside, account⟩
  rw [Recorded.call_eq came, List.append_assoc, List.append_assoc]
  rfl

theorem conducted_call (due : Due sentence rule callers current depth)
    (body : Conducted sentence current depth
      (earlier ++ [.called { rule, callers, entry := { current, depth } }])
      (carryOut tokens (call tokens allowed (rule :: callers)) allowed rule
        { reader := { current, depth },
          events := earlier ++ [.called { rule, callers, entry := { current, depth } }] })
      (rule.plain depth (sentence.tokens.drop current))) :
    Conducted sentence current depth earlier
      (call tokens (allowed + 1) callers rule { reader := { current, depth }, events := earlier })
      (rule.plain depth (sentence.tokens.drop current)) := by
  obtain ⟨outcome, ⟨last, _⟩, events, came, returned, inner⟩ := exists_call_eq due body
  obtain rfl : _ = depth := returned.depth_eq
  rw [came]
  exact .intro returned.agrees (.call due.entered returned inner) returned.inside

/-- To carry out a rule takes one less than to call it. -/
theorem conductsFrom_succ
    (body : ∀ allowed, need ≤ allowed → ∀ callers, Conducts sentence callers rule depth
      (carryOut tokens (call tokens allowed (rule :: callers)) allowed rule)) :
    ConductsFrom tokens sentence (need + 1) rule depth := by
  intro allowed enough callers current earlier due
  obtain ⟨allowed, rfl⟩ : ∃ fewer, allowed = fewer + 1 :=
    Nat.exists_eq_succ_of_ne_zero (Nat.ne_zero_of_lt enough)
  exact conducted_call due (body allowed (Nat.le_of_succ_le_succ enough) callers current _ due)

end Calls

end LoxFront.Checked
