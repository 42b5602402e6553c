import Primer.Proofs.Evaluation.Correspondence

/-!
# Operators on corresponding values

Corresponding values are equally true, print the same text, and every operator takes them to
corresponding results or to the same fault.
-/

namespace Primer

/-- Related results, or the same fault on both sides. -/
inductive SameResult {ε α : Type} (related : α → α → Prop) : Except ε α → Except ε α → Prop
  | ok {a a' : α} (results : related a a') : SameResult related (.ok a) (.ok a')
  | error (fault : ε) : SameResult related (.error fault) (.error fault)

/-- Elements taken at the same place of related lists. -/
theorem related_getElem? {α : Type} {related : α → α → Prop} {xs ys : List α}
    (elements : List.Forall₂ related xs ys) (place : Nat) :
    Option.Rel related xs[place]? ys[place]? := by
  induction elements generalizing place with
  | nil => exact .none
  | cons first _ ih =>
    cases place with
    | zero => exact .some first
    | succ place => exact ih place

/-- Related lists without the elements at one place. -/
theorem related_eraseIdx {α : Type} {related : α → α → Prop} {xs ys : List α}
    (elements : List.Forall₂ related xs ys) (place : Nat) :
    List.Forall₂ related (xs.eraseIdx place) (ys.eraseIdx place) := by
  induction elements generalizing place with
  | nil => exact .nil
  | cons first others ih =>
    cases place with
    | zero => exact others
    | succ place => exact .cons first (ih place)

namespace Correspondence

variable {Γ : Type} [Preorder Γ] {globals globals' : ScopeId}
  {L : Correspondence Γ globals globals'} {γ : Γ}

namespace Lawful

theorem isTrue_eq (lawful : L.Lawful) {v v' : Value} (values : L.values γ v v') :
    v.isTrue = v'.isTrue := by
  cases lawful.sameValue values <;> rfl

mutual

theorem text_eq (lawful : L.Lawful) (v v' : Value) (values : L.values γ v v') :
    v.text = v'.text := by
  cases v with
  | list elements =>
    cases lawful.sameValue values with
    | list children => exact joinedTexts_eq lawful elements _ children
  | function f =>
    cases lawful.sameValue values with
    | function name _ =>
      exact congrArg (fun shown : Option String => "<function " ++ shown.getD "<anonymous>" ++ ">") name
  | _ => cases lawful.sameValue values; rfl

theorem joinedTexts_eq (lawful : L.Lawful) (vs vs' : List Value)
    (values : List.Forall₂ (L.values γ) vs vs') : Value.joinedTexts vs = Value.joinedTexts vs' := by
  cases vs with
  | nil => cases values; rfl
  | cons v rest =>
    cases values with
    | cons first others =>
      have head := text_eq lawful v _ first
      have tail := joinedTexts_eq lawful rest _ others
      cases others with
      | nil => exact head
      | cons => simp only [Value.joinedTexts, head, tail]

end

variable {a a' b b' : Value}

theorem add (lawful : L.Lawful) (first : L.values γ a a') (second : L.values γ b b') :
    SameResult (L.values γ) (a.add b) (a'.add b') := by
  cases lawful.sameValue first with
  | number x =>
    cases lawful.sameValue second with
    | number y => exact .ok (lawful.number γ _)
    | _ => exact .error _
  | string x =>
    cases lawful.sameValue second with
    | string y => exact .ok (lawful.string γ _)
    | _ => exact .error _
  | list elements => exact .ok (lawful.list (List.rel_append elements (.cons second .nil)))
  | _ => exact .error _

theorem sub (lawful : L.Lawful) (first : L.values γ a a') (second : L.values γ b b') :
    SameResult (L.values γ) (a.sub b) (a'.sub b') := by
  cases lawful.sameValue first with
  | number x =>
    cases lawful.sameValue second with
    | number y => exact .ok (lawful.number γ _)
    | _ => exact .error _
  | list elements =>
    cases lawful.sameValue second with
    | number index =>
      simp only [Value.sub, elements.length_eq]
      split
      · exact .ok (lawful.list (related_eraseIdx elements _))
      · exact .error _
    | _ => exact .error _
  | _ => exact .error _

theorem mul (lawful : L.Lawful) (first : L.values γ a a') (second : L.values γ b b') :
    SameResult (L.values γ) (a.mul b) (a'.mul b') := by
  cases lawful.sameValue first with
  | number x =>
    cases lawful.sameValue second with
    | number y => exact .ok (lawful.number γ _)
    | _ => exact .error _
  | string x =>
    cases lawful.sameValue second with
    | number times =>
      simp only [Value.mul]
      split
      · exact .ok (lawful.string γ _)
      · exact .error _
    | _ => exact .error _
  | list elements =>
    cases lawful.sameValue second with
    | list others => exact .ok (lawful.list (List.rel_append elements others))
    | _ => exact .error _
  | _ => exact .error _

theorem div (lawful : L.Lawful) (first : L.values γ a a') (second : L.values γ b b') :
    SameResult (L.values γ) (a.div b) (a'.div b') := by
  cases lawful.sameValue first with
  | number x =>
    cases lawful.sameValue second with
    | number y =>
      simp only [Value.div]
      split
      · exact .ok (lawful.number γ _)
      · exact .error _
    | _ => exact .error _
  | @list elements elements' children =>
    cases lawful.sameValue second with
    | number index =>
      simp only [Value.div, children.length_eq]
      -- The lists are of one length, so the index picks the same place in both.
      cases Value.place? _ index with
      | none => exact .error _
      | some place =>
        simp only [Option.bind_some]
        have found := related_getElem? children place
        generalize elements[place]? = element at found ⊢
        generalize elements'[place]? = element' at found ⊢
        cases found with
        | none => exact .error _
        | some related => exact .ok related
    | _ => exact .error _
  | _ => exact .error _

theorem pow (lawful : L.Lawful) (first : L.values γ a a') (second : L.values γ b b') :
    SameResult (L.values γ) (a.pow b) (a'.pow b') := by
  cases lawful.sameValue first with
  | number x =>
    cases lawful.sameValue second with
    | number y => exact .ok (lawful.number γ _)
    | _ => exact .error _
  | _ => exact .error _

theorem equals (lawful : L.Lawful) (wanted : Bool) (first : L.values γ a a')
    (second : L.values γ b b') :
    SameResult (L.values γ) (a.equals wanted b) (a'.equals wanted b') := by
  cases lawful.sameValue first with
  | number x =>
    cases lawful.sameValue second with
    | number y => exact .ok (lawful.number γ _)
    | _ => exact .error _
  | string x =>
    cases lawful.sameValue second with
    | string y => exact .ok (lawful.number γ _)
    | _ => exact .error _
  | _ => exact .error _

theorem ordered (lawful : L.Lawful) (accept : Ordering → Bool) (first : L.values γ a a')
    (second : L.values γ b b') :
    SameResult (L.values γ) (a.ordered accept b) (a'.ordered accept b') := by
  cases lawful.sameValue first with
  | number x =>
    cases lawful.sameValue second with
    | number y => exact .ok (lawful.number γ _)
    | _ => exact .error _
  | _ => exact .error _

theorem logical (lawful : L.Lawful) (combine : Bool → Bool → Bool) (first : L.values γ a a')
    (second : L.values γ b b') :
    SameResult (L.values γ) (a.logical combine b) (a'.logical combine b') := by
  cases lawful.sameValue first with
  | number x =>
    cases lawful.sameValue second with
    | number y => exact .ok (lawful.number γ _)
    | _ => exact .error _
  | _ => exact .error _

theorem binary (lawful : L.Lawful) (operator : Token) (first : L.values γ a a')
    (second : L.values γ b b') :
    SameResult (L.values γ) (a.binary operator b) (a'.binary operator b') := by
  unfold Value.binary
  split
  · exact lawful.add first second
  · exact lawful.sub first second
  · exact lawful.mul first second
  · exact lawful.div first second
  · exact lawful.pow first second
  · exact lawful.equals true first second
  · exact lawful.equals true first second
  · exact lawful.equals false first second
  · exact lawful.ordered _ first second
  · exact lawful.ordered _ first second
  · exact lawful.ordered _ first second
  · exact lawful.ordered _ first second
  · exact lawful.logical and first second
  · exact lawful.logical or first second
  · exact .error _

theorem unary (lawful : L.Lawful) (operator : Token) (operand : L.values γ a a') :
    SameResult (L.values γ) (a.unary operator) (a'.unary operator) := by
  unfold Value.unary
  split
  · cases lawful.sameValue operand with
    | number x => exact .ok (lawful.number γ _)
    | _ => exact .error _
  · cases lawful.sameValue operand with
    | number x => exact .ok (lawful.number γ _)
    | _ => exact .error _
  · cases lawful.sameValue operand with
    | number x => exact .ok operand
    | _ => exact .error _

end Lawful

end Correspondence

end Primer
