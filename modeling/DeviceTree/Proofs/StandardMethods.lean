import DeviceTree.Proofs.Listings
import DeviceTree.Proofs.Validity

/-!
# The methods of every node

The methods `dir` and `ls` are listed for every node, and are answered from the tree without the
checks that other calls pass. `Device.call_standard` compares their answers with what the listing
says: they take the parameters they are listed with, and give lists unless a name is asked for.
-/

namespace DeviceTree

/-! ## Reserved types -/

namespace Registry.Loaded

variable {r : Registry} {v : Value}

/-- A reserved name is bound as at the start. -/
theorem get?_reserved (loaded : r.Loaded) {name : String} {e : Entry}
    (found : fresh.entry? name = some e) : r.get? name = some e.type :=
  get?_of_bound ((loaded.core name e (fresh_origin found)).2 found)

/-- A value is valid for a reserved name when it belongs to the type at the start. -/
theorem matches_iff (loaded : r.Loaded) {name : String} {e : Entry}
    (found : fresh.entry? name = some e) {n : Nat} :
    r.Matches n name v ↔ r.Accepts n e.type v := by
  refine ⟨fun ⟨bound, accepts⟩ => ?_, .named (loaded.get?_reserved found)⟩
  cases (loaded.get?_reserved found).symm.trans bound
  exact accepts

theorem validate_any (loaded : r.Loaded) : r.validate "Any" v = .ok () :=
  validate_eq_ok.2 ((loaded.matches_iff (e := ⟨.any, .core⟩) rfl).2 .any)

theorem validate_list_iff (loaded : r.Loaded) :
    r.validate "List" v = .ok () ↔ ∃ items, v = .list items := by
  rw [validate_eq_ok, loaded.matches_iff (e := ⟨.list {}, .core⟩) rfl]
  constructor
  · rintro (_ | _)
    exact ⟨_, rfl⟩
  · rintro ⟨items, rfl⟩
    exact .list ⟨by simp, by simp⟩ (by simp)

theorem validate_optionalString_iff (loaded : r.Loaded) :
    r.validate "OptionalString" v = .ok () ↔ v = .null ∨ ∃ text, v = .string text := by
  rw [validate_eq_ok, loaded.matches_iff (e := ⟨.union ["Null", "String"], .builtin⟩) rfl]
  constructor
  · intro accepts
    cases accepts with
    | union mem holds =>
      rcases List.mem_pair.1 mem with rfl | rfl
      · rw [loaded.matches_iff (e := ⟨.null, .core⟩) rfl] at holds
        cases holds
        exact .inl rfl
      · rw [loaded.matches_iff (e := ⟨.string {}, .core⟩) rfl] at holds
        cases holds
        exact .inr ⟨_, rfl⟩
  · rintro (rfl | ⟨text, rfl⟩)
    · have null (n : Nat) : r.Matches (n + 1) "Null" .null :=
        (loaded.matches_iff (e := ⟨.null, .core⟩) rfl).2 .null
      exact .union (List.mem_cons_self ..) (null _)
    · have plain : StringShape.Admits {} text := ⟨⟨by simp, by simp⟩, by simp⟩
      have string (n : Nat) : r.Matches (n + 1) "String" (.string text) :=
        (loaded.matches_iff (e := ⟨.string {}, .core⟩) rfl).2 (.string plain)
      exact .union (List.mem_cons_of_mem _ (List.mem_cons_self ..)) (string _)

end Registry.Loaded

/-! ## Answers from the tree -/

/-- Whether a child has a name, as `ls` tells it. -/
def Node.tellsChild (n : Node) (name : String) : Value :=
  .bool ((n.children.map (·.name)).contains name)

/-- The first descriptor with a name, as `dir` tells it; null when there is none. -/
def Descriptor.tellsFirst (listed : List Descriptor) (name : String) : Value :=
  (listed.find? (·.name == name)).elim .null toValue

/-- The outcome of a call keeps to what its method is listed with, except that another value is told
to a caller who asks for a name. -/
structure Descriptor.Kept (descriptor : Descriptor) (r : Registry) (param : Value)
    (tells : String → Value) (outcome : Except DispatchError Value) : Prop where
  succeeds : (∃ v, outcome = .ok v) ↔ r.validate descriptor.param param = .ok ()
  result : ∀ v, outcome = .ok v →
    (r.validate descriptor.result v = .ok () ↔ ∀ name, param ≠ .string name)
  told : ∀ name, param = .string name → outcome = .ok (tells name)

namespace Descriptor.Kept

variable {descriptor : Descriptor} {r : Registry} {param v : Value} {tells : String → Value}

theorem of_name {name : String} (valid : r.validate descriptor.param (.string name) = .ok ())
    (other : r.validate descriptor.result (tells name) ≠ .ok ()) :
    descriptor.Kept r (.string name) tells (.ok (tells name)) where
  succeeds := iff_of_true ⟨_, rfl⟩ valid
  result := by
    rintro _ ⟨⟩
    exact iff_of_false other fun plain => plain name rfl
  told := by
    rintro _ ⟨⟩
    rfl

theorem of_ok (plain : ∀ name, param ≠ .string name)
    (valid : r.validate descriptor.param param = .ok ())
    (result : r.validate descriptor.result v = .ok ()) : descriptor.Kept r param tells (.ok v) where
  succeeds := iff_of_true ⟨_, rfl⟩ valid
  result := by
    rintro _ ⟨⟩
    exact iff_of_true result plain
  told name named := absurd named (plain name)

theorem of_error {e : DispatchError} (plain : ∀ name, param ≠ .string name)
    (refused : r.validate descriptor.param param ≠ .ok ()) :
    descriptor.Kept r param tells (.error e) where
  succeeds := iff_of_false (by simp) refused
  result := nofun
  told name named := absurd named (plain name)

end Descriptor.Kept

namespace Tree

variable {t : Tree} {path : String} {n : Node} {descriptor : Descriptor}

theorem answerDir_name (resolved : t.resolveNode path = .ok n) (name : String) :
    t.answerDir path (.string name) =
      .ok (Descriptor.tellsFirst (standardMethods ++ n.methods.map (·.descriptor)) name) := by
  rw [answerDir, dir_of_resolveNode resolved, Descriptor.tellsFirst]
  simp only [Except.mapError, bind, Except.bind]
  cases (standardMethods ++ n.methods.map (·.descriptor)).find? (·.name == name) <;> rfl

theorem ls_of_resolveNode (resolved : t.resolveNode path = .ok n) :
    t.ls path = .ok (n.children.map (·.name)) := by
  rw [ls, resolved]
  rfl

/-- What `dir` tells of a name is no list. -/
theorem tellsFirst_ne_list (listed : List Descriptor) (name : String) (items : List Value) :
    Descriptor.tellsFirst listed name ≠ .list items := by
  rw [Descriptor.tellsFirst]
  cases listed.find? (·.name == name) <;> simp [Descriptor.toValue]

variable (loaded : t.Loaded) (resolved : t.resolveNode path = .ok n) (param : Value)

include loaded resolved

/-- The method `ls` lists the children, or tells whether there is one with a name. -/
theorem answerLs_kept (takes : descriptor.param = "OptionalString")
    (gives : descriptor.result = "List") :
    descriptor.Kept t.registry param n.tellsChild (t.answerLs path param) := by
  rw [answerLs, ls_of_resolveNode resolved]
  cases param with
  | string name =>
    refine .of_name ?_ ?_
    · rw [takes, loaded.types.validate_optionalString_iff]
      exact .inr ⟨name, rfl⟩
    · rw [gives, ne_eq, loaded.types.validate_list_iff]
      simp [Node.tellsChild]
  | null =>
    refine .of_ok (by simp) ?_ ?_
    · rw [takes, loaded.types.validate_optionalString_iff]
      exact .inl rfl
    · rw [gives, loaded.types.validate_list_iff]
      exact ⟨_, rfl⟩
  | _ =>
    refine .of_error (by simp) ?_
    rw [takes, ne_eq, loaded.types.validate_optionalString_iff]
    simp

/-- The method `dir` lists the methods, or tells of the one with a name. -/
theorem answerDir_kept (takes : descriptor.param = "Any") (gives : descriptor.result = "List") :
    descriptor.Kept t.registry param
      (Descriptor.tellsFirst (standardMethods ++ n.methods.map (·.descriptor)))
      (t.answerDir path param) := by
  have any {v : Value} : t.registry.validate descriptor.param v = .ok () := by
    rw [takes]
    exact loaded.types.validate_any
  cases param with
  | string name =>
    rw [answerDir_name resolved]
    refine .of_name any ?_
    rw [gives, ne_eq, loaded.types.validate_list_iff]
    exact fun ⟨items, same⟩ => tellsFirst_ne_list _ _ items same
  | _ =>
    rw [answerDir, dir_of_resolveNode resolved]
    refine .of_ok (by simp) any ?_
    rw [gives, loaded.types.validate_list_iff]
    exact ⟨_, rfl⟩

end Tree

/-- The calls of the methods `dir` and `ls` of a loaded tree, which are listed first for every node.
A call leaves the state as it is, and has a result exactly when its parameter is valid for the type
that the method is listed with. The result is valid for the type that is listed unless the parameter
is a string: then `ls` tells whether the node has a child of that name, and `dir` gives the
descriptor that is listed under the name, or null. -/
theorem Device.call_standard {σ : Type} {document : Document} {d : Device σ}
    (loads : Tree.ofDocument document = .ok d.tree) {path : String} {n : Node}
    (resolved : d.tree.resolveNode path = .ok n) :
    ∃ listed, d.tree.dir path = .ok (standardMethods ++ listed) ∧
      ∀ descriptor ∈ standardMethods, ∀ q : Request, q.path = path → q.method = descriptor.name →
        ∀ s, ∃ report, (d.call q).run s = (report, s) ∧
          descriptor.Kept d.tree.registry q.param
            (if descriptor.name = "ls" then n.tellsChild
              else Descriptor.tellsFirst (standardMethods ++ listed)) report.answer := by
  refine ⟨n.methods.map (·.descriptor), Tree.dir_of_resolveNode resolved, ?_⟩
  rintro descriptor standard q rfl method s
  have loaded := Tree.ofDocument_loaded loads
  rcases List.mem_pair.1 standard with rfl | rfl
  · exact ⟨_, call_dir method, Tree.answerDir_kept loaded resolved _ rfl rfl⟩
  · exact ⟨_, call_ls method, Tree.answerLs_kept loaded resolved _ rfl rfl⟩

/-- The boiler has two children and no methods of its own. -/
theorem plantDocument_boiler :
    ∃ t n, Tree.ofDocument plantDocument = .ok t ∧ t.resolveNode "boiler" = .ok n ∧
      n.methods = [] ∧ n.children.map (·.name) = ["pump", "valve"] := by
  have run : (fun t => (t.resolveNode "boiler").map fun n =>
      (n.methods, n.children.map (·.name))) <$> Tree.ofDocument plantDocument =
        .ok (.ok ([], ["pump", "valve"])) := by cbv
  obtain ⟨t, loads, shown⟩ := map_eq_ok.1 run
  obtain ⟨n, resolved, shown⟩ := map_eq_ok.1 shown
  obtain ⟨methods, children⟩ := Prod.mk.inj shown
  exact ⟨t, n, loads, resolved, methods, children⟩

/-- Without a parameter, both methods of the boiler give lists. -/
theorem plantDocument_standard :
    ∃ t n, Tree.ofDocument plantDocument = .ok t ∧ t.resolveNode "boiler" = .ok n ∧
      ∀ descriptor ∈ standardMethods, ∃ report,
        (Device.call { tree := t } { path := "boiler", method := descriptor.name }).run () =
          (report, ()) ∧
        ∃ v, report.answer = .ok v ∧ t.registry.validate descriptor.result v = .ok () := by
  obtain ⟨t, n, loads, resolved, -, -⟩ := plantDocument_boiler
  obtain ⟨listed, -, calls⟩ := Device.call_standard (d := { tree := t }) loads resolved
  refine ⟨t, n, loads, resolved, fun descriptor standard => ?_⟩
  obtain ⟨report, called, kept⟩ :=
    calls descriptor standard { path := "boiler", method := descriptor.name } rfl rfl ()
  have types := (Tree.ofDocument_loaded loads).types
  have valid : t.registry.validate descriptor.param .null = .ok () := by
    rcases List.mem_pair.1 standard with rfl | rfl
    · exact types.validate_any
    · exact types.validate_optionalString_iff.2 (.inl rfl)
  obtain ⟨v, answered⟩ := kept.succeeds.2 valid
  exact ⟨report, called, v, answered, (kept.result v answered).2 (by simp)⟩

/-- Asked for the pump, the method `ls` of the boiler gives no list. -/
theorem plantDocument_ls_pump :
    ∃ t listed, Tree.ofDocument plantDocument = .ok t ∧ t.dir "boiler" = .ok listed ∧
      ∃ descriptor ∈ listed, descriptor ∈ standardMethods ∧
        ∃ v, (Device.call { tree := t }
            { path := "boiler", method := descriptor.name, param := .string "pump" }).run () =
          (⟨.ok v, [.received]⟩, ()) ∧
        t.registry.validate descriptor.result v ≠ .ok () := by
  obtain ⟨t, n, loads, resolved, -, children⟩ := plantDocument_boiler
  refine ⟨t, _, loads, Tree.dir_of_resolveNode resolved,
    { name := "ls", param := "OptionalString", result := "List" },
    List.mem_append_left _ (by decide), by decide, .bool true, ?_, ?_⟩
  · rw [Device.call_ls rfl, Tree.answerLs, Tree.ls_of_resolveNode resolved, children]
    rfl
  · rw [ne_eq, (Tree.ofDocument_loaded loads).types.validate_list_iff]
    simp

end DeviceTree
