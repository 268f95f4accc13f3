import Transect.Program

/-!
# Printing

To compute something prints nothing. So a run that computes first and prints then fails with nothing
printed or not at all, as printing itself does not fail.
-/

namespace Transect

variable {α : Type} {x y : Printing Unit} {text more : String} {cause : Error}

/-- Does nothing but print a text. -/
def Prints (x : Printing Unit) (text : String) : Prop :=
  ∀ written, x.run.run written = (.ok (), written ++ text)

/-- Fails and has printed nothing. -/
def Refuses (x : Printing Unit) (cause : Error) : Prop :=
  ∀ written, x.run.run written = (.error cause, written)

/-- A display that prints a picture of each chart. -/
def Draws (display : Chart → Printing Unit) (picture : Chart → String) : Prop :=
  ∀ chart, Prints (display chart) (picture chart)

/-! ## Computing -/

section Computing

variable {computed : Except Error α} {a : α} {f : α → Printing Unit}

theorem compute_eq (h : computed = .ok a) : (do f (← computed) : Printing Unit) = f a := by
  rw [h]
  rfl

theorem Prints.compute (hcomputed : computed = .ok a) (h : Prints (f a) text) :
    Prints (do f (← computed)) text := by
  rwa [compute_eq hcomputed]

theorem Refuses.compute (hcomputed : computed = .ok a) (h : Refuses (f a) cause) :
    Refuses (do f (← computed)) cause := by
  rwa [compute_eq hcomputed]

theorem refuses_of_error (h : computed = .error cause) : Refuses (do f (← computed)) cause := by
  rw [h]
  exact fun _ => rfl

theorem refuses_throw (cause : Error) : Refuses (throw cause) cause := fun _ => rfl

-- In the other order it would not refuse: what has been printed stays.
example : (do print "distance\n"; throw .nothingToPlot : Printing Unit).run.run "" =
    (.error .nothingToPlot, "distance\n") :=
  rfl

end Computing

/-! ## Printing -/

theorem prints_print (text : String) : Prints (print text) text := fun _ => rfl

theorem prints_pure : Prints (pure ()) "" := fun written => by
  rw [String.append_empty]
  rfl

theorem Prints.andThen (hx : Prints x text) (hy : Prints y more) :
    Prints (do x; y) (text ++ more) := by
  intro written
  have hlast := hy (written ++ text)
  rw [String.append_assoc] at hlast
  calc (do x; y).run.run written
      = y.run.run (written ++ text) := by
        simp only [ExceptT.run_bind, StateT.run_bind, hx written]
        rfl
    _ = (.ok (), written ++ (text ++ more)) := hlast

/-- A loop prints one line for each element of a list, in their order. -/
theorem prints_forM (line : α → List Char) (xs : List α) :
    Prints (xs.forM fun a => print (.ofList (line a))) (.ofList (xs.flatMap line)) := by
  induction xs with
  | nil => exact prints_pure
  | cons a xs ih =>
    rw [List.flatMap_cons, String.ofList_append]
    exact (prints_print _).andThen ih

/-- A table is printed line by line. -/
theorem Profile.prints_printTable (p : Profile) : Prints p.printTable p.csv := by
  have htable : p.csv = .ofList (tableLine p.header) ++
      .ofList (p.samples.flatMap fun s => tableLine (s.cells p.layers)) := by
    unfold csv
    rw [List.flatMap_cons, String.ofList_append, List.flatMap_map]
  rw [htable]
  exact (prints_print _).andThen (prints_forM _ p.samples)

/-! ## Runs -/

section Runs

variable {arrange : List (Point × Nat) → List (Point × Nat)} {display : Chart → Printing Unit}
  {tree : FileTree} {words : List String} {arguments : Arguments}

theorem runInOrder_of_prints (hread : Arguments.read words = .ok arguments)
    (h : Prints (arguments.run arrange display tree) text) :
    runInOrder arrange display tree words = ⟨0, text, ""⟩ := by
  unfold runInOrder
  simp only [hread, h "", String.empty_append]

theorem runInOrder_of_refuses (hread : Arguments.read words = .ok arguments)
    (h : Refuses (arguments.run arrange display tree) cause) :
    runInOrder arrange display tree words = ⟨1, "", "Error: " ++ cause.message ++ "\n"⟩ := by
  unfold runInOrder
  simp only [hread, h ""]

end Runs

end Transect
