import DeviceTree.Proofs.GuardedCalls
import DeviceTree.Proofs.Paths

/-!
# The names of handlers

The handler of a method is registered under a name made of the path and the name of the method, with
an underscore for every character that is not a letter or a digit. So the name keeps the words
between those characters and nothing else (`handlerName_eq_iff`): methods at different paths may
share a handler, unless paths and names are plain (`handlerName_inj`).

A handler answers the calls of all methods that have its name, and a call of any other method does
not depend on it (`registerMethod_isolated`).
-/

namespace DeviceTree

/-! ## Words -/

/-- What is between the characters of a text that are no letters and no digits. -/
def nameWords (text : String) : List (List Char) :=
  text.toList.splitOnP (! Text.isAlphanumeric ·)

/-- A character as it is in the name of a handler. -/
def nameChar (c : Char) : Char :=
  if Text.isAlphanumeric c || c == '_' then c else '_'

/-- Lists are evaluated where arrays are not. -/
theorem isAlphanumeric_eq_countP (c : Char) : Text.isAlphanumeric c =
    (Text.alphabetic.bounds.toList.countP (· ≤ c.toNat) % 2 == 1 ||
      Text.numeric.bounds.toList.countP (· ≤ c.toNat) % 2 == 1) := by
  rw [Array.countP_toList, Array.countP_toList]
  rfl

theorem isAlphanumeric_underscore : Text.isAlphanumeric '_' = false := by
  rw [isAlphanumeric_eq_countP]
  decide +kernel

theorem isAlphanumeric_slash : Text.isAlphanumeric '/' = false := by
  rw [isAlphanumeric_eq_countP]
  decide +kernel

theorem nameChar_eq (c : Char) :
    nameChar c = if Text.isAlphanumeric c then c else '_' := by
  rw [nameChar]
  by_cases kept : Text.isAlphanumeric c = true
  · simp [kept]
  · by_cases underscore : c = '_'
    · simp [underscore]
    · simp [kept, underscore]

/-- A text is determined by its parts between the separators. -/
theorem eq_of_splitOn_eq {cs cs' : List Char} {c : Char} (same : cs.splitOn c = cs'.splitOn c) :
    cs = cs' :=
  calc cs = [c].intercalate (cs.splitOn c) := (List.intercalate_splitOn c).symm
    _ = [c].intercalate (cs'.splitOn c) := by rw [same]
    _ = cs' := List.intercalate_splitOn c

/-- The underscores of a name are between the words of the text. -/
theorem splitOn_map_nameChar (cs : List Char) :
    (cs.map nameChar).splitOn '_' = cs.splitOnP (! Text.isAlphanumeric ·) := by
  induction cs with
  | nil => rw [List.map_nil, List.splitOn_nil, List.splitOnP_nil]
  | cons c rest ih =>
    rw [List.map_cons, List.splitOn_cons_eq_if_modifyHead, ih, List.splitOnP_cons_eq_if_modifyHead,
      nameChar_eq]
    by_cases kept : Text.isAlphanumeric c = true
    · have other : c ≠ '_' := by
        rintro rfl
        rw [isAlphanumeric_underscore] at kept
        contradiction
      simp [kept, other]
    · simp [kept]

/-- Two texts look alike in names exactly when they have the same words. -/
theorem map_nameChar_eq_iff {cs cs' : List Char} : cs.map nameChar = cs'.map nameChar ↔
    cs.splitOnP (! Text.isAlphanumeric ·) = cs'.splitOnP (! Text.isAlphanumeric ·) := by
  rw [← splitOn_map_nameChar, ← splitOn_map_nameChar]
  constructor
  · intro same
    rw [same]
  · exact eq_of_splitOn_eq

/-- The name of a handler keeps the words of the path, then those of the name of the method. -/
theorem handlerName_eq_iff {path method path' method' : String} :
    handlerName path method = handlerName path' method' ↔
      nameWords path ++ nameWords method = nameWords path' ++ nameWords method' := by
  have words (path method : String) : ("_" ++ path ++ "_" ++ method).toList.splitOnP
      (! Text.isAlphanumeric ·) = [] :: (nameWords path ++ nameWords method) := by
    have chars : ("_" ++ path ++ "_" ++ method).toList =
        '_' :: (path.toList ++ '_' :: method.toList) := by simp
    have between : (! Text.isAlphanumeric '_') = true := by
      rw [isAlphanumeric_underscore]
      rfl
    rw [chars, List.splitOnP_cons_eq_if_modifyHead, if_pos between,
      List.splitOnP_append_cons (p := (! Text.isAlphanumeric ·)) _ _ between]
    rfl
  rw [handlerName, handlerName, String.ofList_inj]
  show List.map nameChar _ = List.map nameChar _ ↔ _
  rw [map_nameChar_eq_iff, words, words, List.cons_inj_right]

/-- The last name on a path may as well be the first word of the name of the method. -/
theorem handlerName_shift (path name method : String) :
    handlerName (path ++ "/" ++ name) method = handlerName path (name ++ "_" ++ method) := by
  have words (a b : String) (c : Char) (between : Text.isAlphanumeric c = false) :
      nameWords (a ++ String.singleton c ++ b) = nameWords a ++ nameWords b := by
    have chars : (a ++ String.singleton c ++ b).toList = a.toList ++ c :: b.toList := by simp
    rw [nameWords, chars, List.splitOnP_append_cons _ _ (by simp [between])]
    rfl
  have slash := words path name '/' isAlphanumeric_slash
  have underscore := words name method '_' isAlphanumeric_underscore
  rw [handlerName_eq_iff]
  show nameWords (path ++ String.singleton '/' ++ name) ++ _ =
    _ ++ nameWords (name ++ String.singleton '_' ++ method)
  rw [slash, underscore, List.append_assoc]

/-! ## Plain names -/

/-- The path has only letters and digits between its slashes, and so has the name of the method. -/
structure PlainNames (path method : String) : Prop where
  path : ∀ c ∈ path.toList, Text.isAlphanumeric c = true ∨ c = '/'
  method : ∀ c ∈ method.toList, Text.isAlphanumeric c = true

/-- The words of a plain path are the names on it. -/
theorem PlainNames.words {path method : String} (h : PlainNames path method) :
    nameWords path ++ nameWords method = path.toList.splitOn '/' ++ [method.toList] := by
  have names : ∀ cs : List Char, (∀ c ∈ cs, Text.isAlphanumeric c = true ∨ c = '/') →
      cs.splitOnP (! Text.isAlphanumeric ·) = cs.splitOn '/' := by
    intro cs plain
    induction cs with
    | nil => rw [List.splitOn_nil, List.splitOnP_nil]
    | cons c rest ih =>
      rw [List.forall_mem_cons] at plain
      rw [List.splitOnP_cons_eq_if_modifyHead, List.splitOn_cons_eq_if_modifyHead, ih plain.2]
      rcases plain.1 with kept | rfl
      · have other : c ≠ '/' := by
          rintro rfl
          rw [isAlphanumeric_slash] at kept
          contradiction
        simp [kept, other]
      · simp [isAlphanumeric_slash]
  have whole : nameWords method = [method.toList] :=
    List.splitOnP_eq_singleton fun c mem => by rw [h.method c mem]; rfl
  rw [whole, nameWords, names _ h.path]

/-- Methods with plain names share no handler. -/
theorem handlerName_inj {path method path' method' : String} (plain : PlainNames path method)
    (plain' : PlainNames path' method')
    (same : handlerName path method = handlerName path' method') :
    path = path' ∧ method = method' := by
  rw [handlerName_eq_iff, plain.words, plain'.words] at same
  obtain ⟨names, last⟩ := List.append_inj' same rfl
  exact ⟨String.toList_inj.1 (eq_of_splitOn_eq names),
    String.toList_inj.1 (List.singleton_inj.1 last)⟩

/-- A text of one word has no other characters. -/
theorem toList_of_nameWords {text : String} {word : List Char} (one : nameWords text = [word]) :
    text.toList = word := by
  by_cases plain : ∀ c ∈ text.toList, Text.isAlphanumeric c = true
  · have whole : nameWords text = [text.toList] :=
      List.splitOnP_eq_singleton fun c mem => by rw [plain c mem]; rfl
    exact List.singleton_inj.1 (whole.symm.trans one)
  · obtain ⟨c, mem, between⟩ : ∃ c ∈ text.toList, Text.isAlphanumeric c = false := by
      simpa using plain
    obtain ⟨before, after, cut⟩ := List.append_of_mem mem
    have two := List.splitOnP_append_cons (p := (! Text.isAlphanumeric ·)) before after
      (by rw [between]; rfl)
    have length := congrArg List.length two
    rw [← cut, show text.toList.splitOnP _ = [word] from one, List.length_append] at length
    have first := List.length_pos_iff.2 (List.splitOnP_ne_nil (! Text.isAlphanumeric ·) before)
    have second := List.length_pos_iff.2 (List.splitOnP_ne_nil (! Text.isAlphanumeric ·) after)
    rw [List.length_singleton] at length
    omega

/-- A method of a node below the root shares its handler with no other method, where both have
plain names: a second separator would be seen in the name. -/
theorem handlerName_eq_iff_of_plain {name method path' method' : String}
    (plain : PlainNames name method) (below : '/' ∉ name.toList) :
    handlerName path' method' = handlerName name method ↔ path' = name ∧ method' = method := by
  refine ⟨fun same => ?_, by rintro ⟨rfl, rfl⟩; rfl⟩
  rw [handlerName_eq_iff, plain.words, List.splitOn_eq_singleton below] at same
  obtain ⟨first, more, words⟩ := List.exists_cons_of_ne_nil
    (List.splitOnP_ne_nil (! Text.isAlphanumeric ·) path'.toList)
  obtain ⟨last, rest, words'⟩ := List.exists_cons_of_ne_nil
    (List.splitOnP_ne_nil (! Text.isAlphanumeric ·) method'.toList)
  rw [show nameWords path' = first :: more from words,
    show nameWords method' = last :: rest from words'] at same
  obtain ⟨rfl, rfl, rfl, rfl⟩ :
      first = name.toList ∧ more = [] ∧ last = method.toList ∧ rest = [] := by
    cases more <;> simp_all
  exact ⟨String.toList_inj.1 (toList_of_nameWords words),
    String.toList_inj.1 (toList_of_nameWords words')⟩

/-! ## What a handler answers -/

/-- A registered handler is found under its name, and other names are as before. -/
theorem Handlers.registerMethod_eq_ok {σ : Type} {h h' : Handlers σ} {path method : String}
    {parameters : List String} {run : Handler σ}
    (registers : h.registerMethod path method parameters run = .ok h') :
    ∃ handler : RegisteredHandler σ, handler.run = run ∧
      ∀ name, h'.get? name = if name = handlerName path method then some handler
        else h.get? name := by
  obtain ⟨-, handler, declared, rfl⟩ := register_eq_ok.1 registers
  obtain ⟨fields, -, declared⟩ := bind_eq_ok.1 declared
  cases declared
  exact ⟨_, rfl, fun name => OrderedMap.get?_insert ..⟩

namespace Device

variable {σ : Type} {d : Device σ} {q : Request}

/-- A call looks at one handler at most. -/
theorem call_congr_handlers {handlers : Handlers σ}
    (same : handlers.get? (handlerName q.path q.method) =
      d.handlers.get? (handlerName q.path q.method)) :
    { d with handlers }.call q = d.call q := by
  have implementation : { d with handlers }.implementation q = d.implementation q := by
    funext n m
    simp only [Device.implementation, same]
  have found : { d with handlers }.callMethod q = d.callMethod q := by
    simp only [callMethod, implementation]
    rfl
  simp only [call, dispatch, found]

/-- What the registration of a handler for a method changes. Another method has the same handler
exactly when its path and name have the same words, which no other has among plain names. A call of
a method that has another handler goes as before. A call of one that has the same handler is
answered by it, if it gets that far. -/
theorem registerMethod_isolated {path method : String} {parameters : List String} {run : Handler σ}
    {handlers : Handlers σ}
    (registers : d.handlers.registerMethod path method parameters run = .ok handlers) :
    (∀ path' method', handlerName path' method' = handlerName path method ↔
        nameWords path' ++ nameWords method' = nameWords path ++ nameWords method) ∧
      (PlainNames path method → ∀ path' method', PlainNames path' method' →
        (path', method') ≠ (path, method) →
        handlerName path' method' ≠ handlerName path method) ∧
      ∀ q : Request,
        (handlerName q.path q.method ≠ handlerName path method →
          ∀ s, ({ d with handlers }.call q).run s = (d.call q).run s) ∧
        (handlerName q.path q.method = handlerName path method →
          ∀ n m, m.flags.signal = false →
            ∃ handler : RegisteredHandler σ, handler.run = run ∧
              { d with handlers }.implementation q n m = .ok (.handler handler)) := by
  obtain ⟨handler, runs, found⟩ := Handlers.registerMethod_eq_ok registers
  refine ⟨fun path' method' => handlerName_eq_iff, fun plain path' method' plain' other same => ?_,
    fun q => ⟨fun other s => ?_, fun same n m callable => ⟨handler, runs, ?_⟩⟩⟩
  · obtain ⟨rfl, rfl⟩ := handlerName_inj plain' plain same
    exact other rfl
  · rw [call_congr_handlers ((found _).trans (if_neg other))]
  · have here : handlers.get? (handlerName q.path q.method) = some handler :=
      (found _).trans (if_pos same)
    simp only [implementation, callable, here]
    rfl

/-- A handler that counts the calls it answers. -/
def count : Handler Nat := fun _ => do
  modify (· + 1)
  pure .null

/-- A device of a tree with the counting handler, which is registered for one method. -/
def counting (t : Tree) (path method : String) : Except RegistrationError (Device Nat) := do
  let handlers ← Handlers.empty.registerMethod path method [] count
  .ok { tree := t, handlers }

theorem exists_counting (t : Tree) (path method : String) :
    ∃ d, counting t path method = .ok d ∧ d.tree = t :=
  ⟨_, rfl, rfl⟩

/-- The counting handler answers the calls of all methods that have its name. -/
theorem counting_answers {t : Tree} {path method : String} {d : Device Nat} {n : Node} {m : Method}
    (made : counting t path method = .ok d) (other : q.method ≠ "ls" ∧ q.method ≠ "dir")
    (guarded : d.Guarded q n m) (result : d.tree.registry.validate m.result .null = .ok ())
    (shares : handlerName q.path q.method = handlerName path method) (s : Nat) :
    (d.call q).run s = (⟨.ok .null, CallStage.all⟩, s + 1) := by
  obtain ⟨handlers, registers, made⟩ := bind_eq_ok.1 made
  cases made
  obtain ⟨handler, runs, found⟩ := Handlers.registerMethod_eq_ok registers
  have here : handlers.get? (handlerName q.path q.method) = some handler :=
    (found _).trans (if_pos shares)
  have answered : Device.implementation { tree := t, handlers } q n m = .ok (.handler handler) := by
    simp only [implementation, guarded.callable, here]
    rfl
  have reaches : Device.Reaches { tree := t, handlers } q m (.handler handler) :=
    ⟨n, accessibleMethod_eq_ok.2 ⟨guarded.resolved, guarded.granted⟩, answered⟩
  have answers : Device.Answers { tree := t, handlers } q s m (.handler handler) .null (s + 1) := by
    refine ⟨s, ⟨reaches, rfl, guarded.valid⟩, ?_⟩
    rw [invoke, runs]
    rfl
  have run := (Course.completed answers rfl result).call_eq other
  rw [asDeclared_null] at run
  exact run

end Device

/-- A document with a node whose methods anyone may call, and a node below it with a method for
superusers only. -/
def doorDocument : Document :=
  let lock : NodeSpec := { methods := [("c", { access := some "su" })] }
  { nodes := [("a", { nodes := [("b", lock)], methods := [("b_c", {}), ("d", {})] })] }

/-- The handler of the method for superusers does not answer a method of another name. -/
theorem doorDocument_isolated :
    ∃ t handlers, Tree.ofDocument doorDocument = .ok t ∧
      (∃ found, t.resolveMethod "a" "d" = .ok found) ∧
      Handlers.empty.registerMethod "a/b" "c" [] Device.count = .ok handlers ∧
      handlerName "a" "d" ≠ handlerName "a/b" "c" ∧
      ∀ s, (Device.call { tree := t, handlers } { path := "a", method := "d" }).run s =
        (Device.call { tree := t } { path := "a", method := "d" }).run s := by
  have run : (fun t => (t.resolveMethod "a" "d").isOk) <$> Tree.ofDocument doorDocument =
      .ok true := by cbv
  obtain ⟨t, loads, shown⟩ := map_eq_ok.1 run
  obtain ⟨handlers, registers⟩ : ∃ handlers,
    Handlers.empty.registerMethod "a/b" "c" [] Device.count = .ok handlers := ⟨_, rfl⟩
  have letters : Text.isAlphanumeric 'a' = true ∧ Text.isAlphanumeric 'b' = true ∧
      Text.isAlphanumeric 'c' = true ∧ Text.isAlphanumeric 'd' = true := by
    simp only [isAlphanumeric_eq_countP]
    decide +kernel
  have locked : PlainNames "a/b" "c" := by constructor <;> simp [letters]
  have plain : PlainNames "a" "d" := by constructor <;> simp [letters]
  obtain ⟨-, distinct, isolated⟩ := Device.registerMethod_isolated (d := { tree := t }) registers
  have other := distinct locked "a" "d" plain (by decide)
  refine ⟨t, handlers, loads, ?_, registers, other, (isolated _).1 other⟩
  rcases found : t.resolveMethod "a" "d" with e | found
  · rw [found] at shown
    cases shown
  · exact ⟨_, rfl⟩

/-- The two methods of a tree of the document. -/
def doorMethods (t : Tree) : Except ResolutionError (Method × Method) := do
  let (_, opened) ← t.resolveMethod "a" "b_c"
  let (_, locked) ← t.resolveMethod "a/b" "c"
  .ok (opened, locked)

/-- The handler of the method for superusers answers anyone who calls the other one. -/
theorem doorDocument_shares_handler :
    ∃ t, Tree.ofDocument doorDocument = .ok t ∧
      (∃ n m, t.resolveMethod "a/b" "c" = .ok (n, m) ∧ m.access = .superuser) ∧
      (∃ n m, t.resolveMethod "a" "b_c" = .ok (n, m) ∧ m.access = .browse) ∧
      handlerName "a" "b_c" = handlerName "a/b" "c" ∧
      ∃ d, Device.counting t "a/b" "c" = .ok d ∧
        (d.call { path := "a/b", method := "c" }).run 0 =
          (⟨.error (.accessDenied "a/b" "c" .superuser .browse), [.received]⟩, 0) ∧
        (d.call { path := "a", method := "b_c" }).run 0 = (⟨.ok .null, CallStage.all⟩, 1) := by
  have run : (fun t => (doorMethods t, t.registry.validate "Null" .null)) <$>
      Tree.ofDocument doorDocument =
        .ok (.ok ({ name := "b_c" }, { name := "c", access := .superuser }), .ok ()) := by cbv
  obtain ⟨t, loads, shown⟩ := map_eq_ok.1 run
  obtain ⟨methods, valid⟩ := Prod.mk.inj shown
  obtain ⟨⟨n, m⟩, opened, methods⟩ := bind_eq_ok.1 methods
  obtain ⟨⟨n', m'⟩, locked, methods⟩ := bind_eq_ok.1 methods
  cases methods
  have shares : handlerName "a" "b_c" = handlerName "a/b" "c" :=
    (handlerName_shift "a" "b" "c").symm
  obtain ⟨d, made, rfl⟩ := Device.exists_counting t "a/b" "c"
  refine ⟨_, loads, ⟨n', _, locked, rfl⟩, ⟨n, _, opened, rfl⟩, shares, d, made, ?_, ?_⟩
  · have denied := Device.accessibleMethod_denied (q := { path := "a/b", method := "c" }) locked
      (by decide)
    exact (Device.Course.denied denied).call_eq (by decide)
  · have guarded : d.Guarded { path := "a", method := "b_c" } n { name := "b_c" } :=
      ⟨opened, by decide, rfl, valid⟩
    exact Device.counting_answers made (by decide) guarded valid shares 0

end DeviceTree
