/-
This file says what a run writes and what it comes to, on every sink. An emission writes bytes and
then comes to a result; on a sink without room for all of them it writes those that fit and comes
to the failure of the sink, whatever the result would have been. Emissions are put one behind the
other under this description, so it is enough that a run lists the tokens if it is asked to and
then goes by what the text is read as.
-/

import LoxFront.Proofs.Coverage
import LoxFront.Run

namespace LoxFront

/-! ### Sinks -/

namespace Sink

theorem accept_unlimited (received bytes : Bytes) :
    accept { received } bytes = (true, { received := received ++ bytes }) := rfl

theorem accept_limited (received bytes : Bytes) (room : Nat) :
    accept { received, room? := some room } bytes =
      (decide (bytes.length ≤ room),
        { received := received ++ bytes.take room, room? := some (room - bytes.length) }) := rfl

theorem accept_nil (sink : Sink) : sink.accept [] = (true, sink) := by
  obtain ⟨received, room?⟩ := sink
  cases room? with
  | none => rw [accept_unlimited, List.append_nil]
  | some room =>
    rw [accept_limited, List.take_nil, List.append_nil]
    rfl

/-- What is given at once fits if it fits when it is given in two parts. -/
theorem accept_append (sink : Sink) (first second : Bytes) :
    sink.accept (first ++ second) =
      ((sink.accept first).1 && ((sink.accept first).2.accept second).1,
        ((sink.accept first).2.accept second).2) := by
  obtain ⟨received, room?⟩ := sink
  cases room? with
  | none =>
    rw [accept_unlimited, accept_unlimited, accept_unlimited, List.append_assoc]
    rfl
  | some room =>
    rw [accept_limited, accept_limited, accept_limited, List.length_append, List.take_append,
      List.append_assoc, Nat.sub_add_eq]
    refine Prod.ext ?_ rfl
    rw [← Bool.decide_and]
    exact decide_eq_decide.mpr (by omega)

/-- A sink into which something did not fit takes nothing more. -/
theorem accept_of_full {sink : Sink} {first : Bytes} (full : (sink.accept first).1 = false)
    (second : Bytes) : ((sink.accept first).2.accept second).2 = (sink.accept first).2 := by
  obtain ⟨received, room?⟩ := sink
  cases room? with
  | none => cases full
  | some room =>
    have short : room - first.length = 0 := by
      have noRoom : ¬ first.length ≤ room := of_decide_eq_false full
      omega
    rw [accept_limited, short, accept_limited, List.take_zero, List.append_nil, Nat.zero_sub]

end Sink

/-! ### Emissions -/

/-- On every sink the emission writes the bytes and comes to the result, unless they do not fit. -/
def Emits (emission : Emission Unit) (written : Bytes) (result : Except RunFailure Unit) : Prop :=
  ∀ sink : Sink, emission.run.run sink =
    (if (sink.accept written).1 then result else .error .sinkFull, (sink.accept written).2)

/-- One emission after another: a failure of the first is that of both. -/
theorem run_andThen (first second : Emission Unit) (sink : Sink) :
    (first >>= fun _ => second).run.run sink =
      match first.run.run sink with
      | (.error failure, later) => (.error failure, later)
      | (.ok _, later) => second.run.run later := by
  rw [ExceptT.run_bind, StateT.run_bind]
  obtain ⟨outcome, later⟩ := first.run.run sink
  cases outcome <;> rfl

theorem emits_emitLine (line : Text) :
    Emits (emitLine line) (Text.utf8 (line ++ ['\n'])) (.ok ()) := by
  intro sink
  show (do unless (sink.accept (Text.utf8 (line ++ ['\n']))).1 do throw .sinkFull :
    Emission Unit).run.run (sink.accept (Text.utf8 (line ++ ['\n']))).2 = _
  cases (sink.accept (Text.utf8 (line ++ ['\n']))).1 <;> rfl

theorem emits_throw (failure : RunFailure) : Emits (throw failure) [] (.error failure) := by
  intro sink
  rw [sink.accept_nil]
  rfl

theorem Emits.andThen {first second : Emission Unit} {front back : Bytes}
    {result : Except RunFailure Unit} (emitsFirst : Emits first front (.ok ()))
    (emitsSecond : Emits second back result) :
    Emits (first >>= fun _ => second) (front ++ back) result := by
  intro sink
  rw [run_andThen, emitsFirst sink, sink.accept_append]
  cases fits : (sink.accept front).1 with
  | false =>
    rw [Sink.accept_of_full fits]
    rfl
  | true => exact emitsSecond _

section Outcomes

variable {emission : Emission Unit} {written : Bytes} {result : Except RunFailure Unit}
  (emits : Emits emission written result)

include emits

theorem Emits.unlimited : emission.run.run {} = (result, { received := written }) := emits {}

theorem Emits.limited (room : Nat) :
    emission.run.run { room? := some room } =
      (if written.length ≤ room then result else .error .sinkFull,
        { received := written.take room, room? := some (room - written.length) }) := by
  rw [emits { room? := some room }, Sink.accept_limited, List.nil_append]
  simp only [decide_eq_true_eq]

end Outcomes

/-! ### Runs -/

/-- The end of a run: the tree in prefix form, or what is wrong with the text. -/
def conclusion (source : Text) : Emission Unit :=
  match parseText source with
  | .ok expr => emitLine expr.prefixForm
  | .error found => throw (.diagnostics found)

/-- A run lists the tokens if it is asked to. For the rest it goes by what the text is read as. -/
theorem run_eq (source : Text) (listTokens : Bool) :
    run source listTokens = (do
      if listTokens then emitLine (Text.joinLines ((tokenize source).1.map Token.listing))
      conclusion source) := by
  unfold run conclusion parseText
  obtain ⟨tokens, errors⟩ := tokenize source
  dsimp only
  cases errors with
  | nil => cases parseWhole tokens <;> rfl
  | cons error others => rfl

/-- The listing of the tokens, if it is asked for. -/
def listed (source : Text) (listTokens : Bool) : Bytes :=
  if listTokens then
    Text.utf8 (Text.joinLines ((tokenize source).1.map Token.listing) ++ ['\n'])
  else []

/-- The prefix form of the tree that a text is read as, if there is one. -/
def shown (source : Text) : Bytes :=
  match parseText source with
  | .ok expr => Text.utf8 (expr.prefixForm ++ ['\n'])
  | .error _ => []

/-- What a run comes to if everything it writes fits. -/
def verdict (source : Text) : Except RunFailure Unit :=
  match parseText source with
  | .ok _ => .ok ()
  | .error found => .error (.diagnostics found)

theorem emits_conclusion (source : Text) :
    Emits (conclusion source) (shown source) (verdict source) := by
  unfold conclusion shown verdict
  cases parseText source with
  | ok expr => exact emits_emitLine expr.prefixForm
  | error found => exact emits_throw (.diagnostics found)

theorem emits_run (source : Text) (listTokens : Bool) :
    Emits (run source listTokens) (listed source listTokens ++ shown source)
      (verdict source) := by
  rw [run_eq]
  cases listTokens with
  | false => exact emits_conclusion source
  | true => exact (emits_emitLine _).andThen (emits_conclusion source)

theorem verdict_eq_ok {source : Text} :
    verdict source = .ok () ↔ ∃ expr, parseText source = .ok expr := by
  unfold verdict
  cases parseText source with
  | ok expr => exact ⟨fun _ => ⟨expr, rfl⟩, fun _ => rfl⟩
  | error found => refine ⟨fun equal => ?_, fun ⟨_, equal⟩ => ?_⟩ <;> cases equal

theorem verdict_eq_diagnostics {source : Text} {found : List Diagnostic} :
    verdict source = .error (.diagnostics found) ↔ parseText source = .error found := by
  unfold verdict
  cases parseText source with
  | ok expr => refine ⟨fun equal => ?_, fun equal => ?_⟩ <;> cases equal
  | error others => refine ⟨fun equal => ?_, fun equal => ?_⟩ <;> cases equal <;> rfl

theorem verdict_ne_sinkFull (source : Text) : verdict source ≠ .error .sinkFull := by
  unfold verdict
  cases parseText source <;> simp

/-! ### What is reported -/

/-- One diagnostic is about an earlier position than another. -/
def Diagnostic.Precedes (first second : Diagnostic) : Prop :=
  first.line < second.line ∨ first.line = second.line ∧ first.column < second.column

/-- What is wrong with a text: all that cannot be read as tokens, in the order of the text, or else
the one reason why the tokens are no expression. -/
inductive Reported (source : Text) : List Diagnostic → Prop
  | lexical (unclean : (tokenize source).2 ≠ [])
      (ordered : ((tokenize source).2.map LexicalError.diagnostic).Pairwise Diagnostic.Precedes) :
      Reported source ((tokenize source).2.map LexicalError.diagnostic)
  | syntactic {error : SyntaxError} (clean : (tokenize source).2 = [])
      (failed : parseWhole (tokenize source).1 = .error error) :
      Reported source [error.diagnostic]

/-- Failures to read a token are reported in the order of the text. -/
theorem pairwise_precedes_lexical (source : Text) :
    ((tokenize source).2.map LexicalError.diagnostic).Pairwise Diagnostic.Precedes := by
  exact List.pairwise_map.mpr (pairwise_precedes_filterMap .error Item.error?_eq_some.mp source)

theorem reported_of_parseText {source : Text} {found : List Diagnostic}
    (failed : parseText source = .error found) : Reported source found := by
  by_cases clean : (tokenize source).2 = []
  · rw [parseText_of_clean clean] at failed
    cases parsed : parseWhole (tokenize source).1 with
    | ok expr =>
      rw [parsed] at failed
      cases failed
    | error error =>
      rw [parsed] at failed
      cases failed
      exact .syntactic clean parsed
  · rw [parseText_of_unclean clean] at failed
    cases failed
    exact .lexical clean (pairwise_precedes_lexical source)

/-- Running a text agrees with reading it, and a sink that runs full only cuts the output short.
Where there is room for everything the run succeeds exactly if the text is read as a tree, and
fails with exactly what is reported of the text; the tree is written behind the listing in the one
case, and nothing in the other. With less room the beginning of the same output is kept, and the
failure is that of the sink whatever the text is. -/
theorem run_agrees_with_parseText (source : Text) (listTokens : Bool) :
    ∃ result written, runInto {} source listTokens = (result, { received := written }) ∧
      (result = .ok () ↔ ∃ expr, parseText source = .ok expr) ∧
      (∀ expr, parseText source = .ok expr →
        written = listed source listTokens ++ Text.utf8 (expr.prefixForm ++ ['\n'])) ∧
      (∀ found, result = .error (.diagnostics found) ↔ parseText source = .error found) ∧
      (∀ found, parseText source = .error found →
        written = listed source listTokens ∧ Reported source found) ∧
      ∀ room, ∃ cut sink, runInto { room? := some room } source listTokens = (cut, sink) ∧
        sink.received = written.take room ∧
        (cut = .error .sinkFull ↔ room < written.length) ∧
        (written.length ≤ room → cut = result) := by
  have emits := emits_run source listTokens
  refine ⟨_, _, emits.unlimited, verdict_eq_ok, fun expr read => ?_,
    fun found => verdict_eq_diagnostics, fun found failed => ⟨?_, reported_of_parseText failed⟩,
    fun room => ⟨_, _, emits.limited room, rfl, ?_, fun fits => if_pos fits⟩⟩
  · rw [shown, read]
  · rw [shown, failed, List.append_nil]
  · by_cases fits : (listed source listTokens ++ shown source).length ≤ room
    · rw [if_pos fits]
      exact iff_of_false (verdict_ne_sinkFull source) (Nat.not_lt.mpr fits)
    · rw [if_neg fits]
      exact iff_of_true rfl (Nat.lt_of_not_le fits)

end LoxFront
