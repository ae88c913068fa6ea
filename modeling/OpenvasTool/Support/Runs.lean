import Mathlib.Data.List.Basic

/-!
# Runs of a deterministic system

A system is a step function on states, driven by a list of inputs. `Along`
states a condition on every step of a run, and `Since` is the temporal
connective: some step did something, and a condition holds ever since.
-/

namespace Support

variable {σ ι : Type*} {step : σ → ι → σ}

/-- The state after a list of inputs. -/
def run (step : σ → ι → σ) (s : σ) (is : List ι) : σ := is.foldl step s

@[simp] theorem run_nil (s : σ) : run step s [] = s := rfl

@[simp] theorem run_cons (s : σ) (i : ι) (is : List ι) :
    run step s (i :: is) = run step (step s i) is := rfl

@[simp] theorem run_append (s : σ) (is js : List ι) :
    run step s (is ++ js) = run step (run step s is) js := List.foldl_append

/-- `P` holds of every state of the run and the input it then receives. -/
def Along (step : σ → ι → σ) (P : σ → ι → Prop) : σ → List ι → Prop
  | _, [] => True
  | s, i :: is => P s i ∧ Along step P (step s i) is

theorem along_append {P : σ → ι → Prop} {s : σ} {is js : List ι} :
    Along step P s (is ++ js) ↔ Along step P s is ∧ Along step P (run step s is) js := by
  induction is generalizing s with
  | nil => simp [Along]
  | cons i is ih => simp [Along, ih, and_assoc]

theorem along_concat {P : σ → ι → Prop} {s : σ} {is : List ι} {i : ι} :
    Along step P s (is ++ [i]) ↔ Along step P s is ∧ P (run step s is) i := by
  simp [along_append, Along]

theorem along_of_forall {P : σ → ι → Prop} (h : ∀ s i, P s i) (s : σ) (is : List ι) :
    Along step P s is := by
  induction is generalizing s with
  | nil => trivial
  | cons i is ih => exact ⟨h s i, ih _⟩

/-- An invariant of the admitted steps holds at the end of every admitted run. -/
theorem Along.invariant {P : σ → ι → Prop} {Inv : σ → Prop}
    (hstep : ∀ s i, P s i → Inv s → Inv (step s i)) {s : σ} {is : List ι}
    (h : Along step P s is) (hs : Inv s) : Inv (run step s is) := by
  induction is generalizing s with
  | nil => exact hs
  | cons i is ih => exact ih h.2 (hstep s i h.1 hs)

/-- An invariant of every step holds at the end of every run. -/
theorem invariant_run {Inv : σ → Prop} (hstep : ∀ s i, Inv s → Inv (step s i)) {s : σ}
    (hs : Inv s) (is : List ι) : Inv (run step s is) :=
  (along_of_forall (P := fun _ _ => True) (fun _ _ => trivial) s is).invariant
    (fun s i _ => hstep s i) hs

/-- Every state of the run satisfies `holds`. -/
def Throughout (step : σ → ι → σ) (holds : σ → Prop) (s : σ) (is : List ι) : Prop :=
  ∀ mid, mid <+: is → holds (run step s mid)

theorem throughout_nil {holds : σ → Prop} {s : σ} (h : holds s) : Throughout step holds s [] := by
  intro mid hmid
  rwa [List.prefix_nil.mp hmid]

theorem Throughout.concat {holds : σ → Prop} {s : σ} {is : List ι} {i : ι}
    (h : Throughout step holds s is) (hlast : holds (run step s (is ++ [i]))) :
    Throughout step holds s (is ++ [i]) := by
  intro mid hmid
  rcases List.prefix_concat_iff.mp hmid with rfl | hmid
  · exact hlast
  · exact h mid hmid

theorem throughout_cons {holds : σ → Prop} {s : σ} {i : ι} {is : List ι} :
    Throughout step holds s (i :: is) ↔ holds s ∧ Throughout step holds (step s i) is := by
  constructor
  · intro h
    exact ⟨h [] (List.nil_prefix), fun mid hmid => h (i :: mid) (List.cons_prefix_cons.mpr ⟨rfl, hmid⟩)⟩
  · rintro ⟨hs, h⟩ mid hmid
    cases mid with
    | nil => exact hs
    | cons j mid =>
      obtain ⟨rfl, hrest⟩ := List.cons_prefix_cons.mp hmid
      exact h mid hrest

/-- If under an invariant the admitted steps keep it and every other step leaves the good states,
then the states of a run are all good exactly when all its steps are admitted. -/
theorem throughout_iff_along {P : σ → ι → Prop} {Inv good : σ → Prop}
    (hgood : ∀ s, Inv s → good s) (hstep : ∀ s i, P s i → Inv s → Inv (step s i))
    (hleave : ∀ s i, ¬ P s i → Inv s → ¬ good (step s i)) {s : σ} {is : List ι} (hs : Inv s) :
    Throughout step good s is ↔ Along step P s is := by
  induction is generalizing s with
  | nil => exact ⟨fun _ => trivial, fun _ => throughout_nil (hgood s hs)⟩
  | cons i is ih =>
    rw [throughout_cons]
    constructor
    · rintro ⟨_, h⟩
      have hP : P s i := by
        by_contra hnot
        exact hleave s i hnot hs (h [] (List.nil_prefix))
      exact ⟨hP, (ih (hstep s i hP hs)).mp h⟩
    · rintro ⟨hP, h⟩
      exact ⟨hgood s hs, (ih (hstep s i hP hs)).mpr h⟩

/-- A step satisfied `event`, and every state from right after it up to now satisfies `holds`. -/
def Since (step : σ → ι → σ) (event : σ → ι → Prop) (holds : σ → Prop) (s : σ)
    (is : List ι) : Prop :=
  ∃ pre i post, is = pre ++ i :: post ∧ event (run step s pre) i ∧
    ∀ mid, mid <+: post → holds (run step s (pre ++ i :: mid))

namespace Since

variable {event : σ → ι → Prop} {holds : σ → Prop} {s : σ} {is : List ι} {i : ι}

/-- The last step satisfied the event. -/
theorem now (hevent : event (run step s is) i) (hholds : holds (run step s (is ++ [i]))) :
    Since step event holds s (is ++ [i]) := by
  refine ⟨is, i, [], rfl, hevent, fun mid hmid => ?_⟩
  rw [List.prefix_nil.mp hmid]
  exact hholds

/-- An earlier step satisfied the event, and the condition also survives the last step. -/
theorem later (h : Since step event holds s is) (hholds : holds (run step s (is ++ [i]))) :
    Since step event holds s (is ++ [i]) := by
  obtain ⟨pre, j, post, rfl, hevent, hpost⟩ := h
  refine ⟨pre, j, post ++ [i], by simp, hevent, fun mid hmid => ?_⟩
  rcases List.prefix_concat_iff.mp hmid with rfl | hmid
  · simpa using hholds
  · exact hpost mid hmid

/-- The condition can be weakened along the run by an invariant. -/
theorem mono {event' : σ → ι → Prop} {holds' : σ → Prop}
    (hevent : ∀ s i, event s i → event' s i) (hholds : ∀ s, holds s → holds' s)
    (h : Since step event holds s is) : Since step event' holds' s is := by
  obtain ⟨pre, j, post, heq, he, hpost⟩ := h
  exact ⟨pre, j, post, heq, hevent _ _ he, fun mid hmid => hholds _ (hpost mid hmid)⟩

end Since

end Support
