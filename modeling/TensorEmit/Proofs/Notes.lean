import TensorEmit.Operator
import TensorEmit.Proofs.Passes

/-!
# Notes on operations

Counting references leaves two notes among the attributes of an operation. Their keys start with
`noteMark`, and `notesOf` picks the attributes with such keys. An operation is tidy if it has the
two notes or none; passes keep operations tidy, and what the notes of a tidy operation say is what
emission reads off them.
-/

namespace TensorEmit

/-- The mark with which the keys of notes start. -/
def noteMark : String := "_utensor_refcnt__"

/-- The attributes whose keys have the mark. -/
def notesOf (attrs : Entries String Value) : Entries String Value :=
  attrs.filter fun e => Text.startsWith noteMark e.1

/-! ## Which options are notes -/

/-- A pattern without a point fits only what starts with it. -/
theorem eq_append_of_matchPattern {pattern cs rest : List Char} (exact : '.' ∉ pattern)
    (fits : matchPattern pattern cs = some rest) : cs = pattern ++ rest := by
  induction pattern generalizing cs with
  | nil =>
    cases fits
    rfl
  | cons p pattern ih =>
    rw [List.mem_cons, not_or] at exact
    cases cs with
    | nil => cases fits
    | cons c cs =>
      rw [matchPattern] at fits
      split at fits
      case isTrue same =>
        rcases same with rfl | ⟨point, _⟩
        · rw [ih exact.2 fits]
          rfl
        · exact absurd point.symm exact.1
      case isFalse => cases fits

/-- Only a key with the mark is an own option of the notes. -/
theorem startsWith_of_optionPlace {key : String} {name : Option String}
    (own : optionPlace Pass.refCount.scope key = .own name) : Text.startsWith noteMark key := by
  have alone : Text.splitAt "|" Pass.refCount.scope = [Pass.refCount.scope] := rfl
  unfold optionPlace at own
  rw [alone, placeAmong] at own
  split at own
  case _ rest fits =>
    have parts := eq_append_of_matchPattern (by decide) fits
    split at own
    case _ _ named =>
      unfold optionName? at named
      split at named
      · unfold Text.startsWith
        have mark : noteMark.toList = Pass.refCount.scope.toList ++ ['_', '_'] := rfl
        rw [List.isPrefixOf_iff_prefix, parts, mark]
        exact ⟨_, List.append_assoc _ _ _⟩
      · cases named
    case _ => cases own
  case _ => cases own

theorem Options.scope_file (o : Options) (key : String) (v : Value) :
    (o.file key v).scope = o.scope := by
  unfold Options.file
  split
  · rfl
  · rfl

theorem Options.own_file (o : Options) (key : String) (v : Value) :
    (o.file key v).own =
      match optionPlace o.scope key with
      | .shared => o.own
      | .own name => o.own.set name v := by
  unfold Options.file
  cases optionPlace o.scope key with
  | shared => rfl
  | own name => rfl

/-- The own options among attributes come from the notes. -/
theorem own_ofEntries (attrs : Entries String Value) :
    (Options.ofEntries Pass.refCount.scope attrs).own =
      (Options.ofEntries Pass.refCount.scope (notesOf attrs)).own := by
  -- The shared options of the two runs differ, so the invariant speaks of the own ones alone.
  have fold : ∀ (attrs : Entries String Value) (o o' : Options), o.scope = Pass.refCount.scope →
      o'.scope = Pass.refCount.scope → o.own = o'.own →
      (attrs.foldl (fun o e => o.file e.1 e.2) o).own =
        ((notesOf attrs).foldl (fun o e => o.file e.1 e.2) o').own := by
    intro attrs
    induction attrs with
    | nil => exact fun _ _ _ _ same => same
    | cons e attrs ih =>
      intro o o' scope scope' same
      unfold notesOf
      by_cases marked : Text.startsWith noteMark e.1
      · rw [List.filter_cons_of_pos (by simpa using marked), List.foldl_cons, List.foldl_cons]
        refine ih _ _ ?_ ?_ ?_
        · rw [Options.scope_file, scope]
        · rw [Options.scope_file, scope']
        · rw [Options.own_file, Options.own_file, scope, scope', same]
      · rw [List.filter_cons_of_neg (by simpa using marked), List.foldl_cons]
        refine ih _ _ ?_ scope' ?_
        · rw [Options.scope_file, scope]
        · rw [Options.own_file, scope]
          split
          · exact same
          · rename_i own
            exact absurd (startsWith_of_optionPlace own) marked
  exact fold attrs _ _ rfl rfl rfl

/-! ## Reading notes -/

/-- Attributes with the two notes. -/
def Noted (attrs : Entries String Value) (counts : Value) : Prop :=
  ∃ evaluated, notesOf attrs = [(evaluateKey, evaluated), (countsKey, counts)]

theorem optionPlace_evaluateKey :
    optionPlace Pass.refCount.scope evaluateKey = .own (some "to_eval") := by decide

theorem optionPlace_countsKey :
    optionPlace Pass.refCount.scope countsKey = .own (some "ref_counts") := by decide

namespace Operation

/-- The counts of an operation with notes are found. -/
theorem notes_of_noted {op : Operation} {counts : Value} (noted : Noted op.attrs counts) :
    op.notes.get? "ref_counts" = some counts := by
  obtain ⟨evaluated, notes⟩ := noted
  have own : op.notes.own = [(some "to_eval", evaluated), (some "ref_counts", counts)] := by
    unfold Operation.notes
    rw [own_ofEntries, notes]
    unfold Options.ofEntries
    simp only [List.foldl_cons, List.foldl_nil, Options.own_file, Options.scope_file,
      optionPlace_evaluateKey, optionPlace_countsKey]
    simp [Entries.set]
  simp [Options.get?, own, Entries.get?]

theorem useCounts_of_noted {op : Operation} {counts : Value} (noted : Noted op.attrs counts) :
    op.useCounts = counts := by
  simp [useCounts, Options.getD, notes_of_noted noted]

theorem useCount_of_noted {op : Operation} {counts : Value} (noted : Noted op.attrs counts) :
    op.useCount = firstOf counts := by
  simp [useCount, Options.getD, notes_of_noted noted]

end Operation

/-! ## Making and keeping notes -/

theorem notesOf_set_of_marked {key : String} (marked : Text.startsWith noteMark key)
    (attrs : Entries String Value) (v : Value) :
    notesOf (attrs.set key v) = (notesOf attrs).set key v :=
  (Entries.filter_set (Text.startsWith noteMark) attrs key v).trans (if_pos marked)

theorem notesOf_set_of_unmarked {key : String} (unmarked : ¬Text.startsWith noteMark key)
    (attrs : Entries String Value) (v : Value) : notesOf (attrs.set key v) = notesOf attrs :=
  (Entries.filter_set (Text.startsWith noteMark) attrs key v).trans (if_neg unmarked)

/-- A key with the mark of notes is private. -/
theorem isPrivate_of_marked {key : String} (marked : Text.startsWith noteMark key) :
    Text.startsWith privateMark key := by
  unfold Text.startsWith at marked ⊢
  rw [List.isPrefixOf_iff_prefix] at marked ⊢
  have shorter : privateMark.toList <+: noteMark.toList := by decide
  exact shorter.trans marked

/-- Storing attributes keeps the notes. -/
theorem notesOf_storedAttrs {attrs attrs' : Entries String Value}
    (run : storedAttrs attrs = .ok attrs') : notesOf attrs' = notesOf attrs := by
  have related := mapM_eq_ok_iff.mp run
  unfold notesOf
  clear run
  induction related with
  | nil => rfl
  | @cons e e' attrs attrs' head tail ih =>
    by_cases marked : Text.startsWith noteMark e.1
    · rw [storedAttr_eq_ok_iff, if_pos (isPrivate_of_marked marked)] at head
      subst head
      simp [marked, ih]
    · have marked' : ¬Text.startsWith noteMark e'.1 := by rwa [storedAttr_key head]
      simp [marked, marked', ih]

/-- Operations that are alike have the same notes. -/
theorem Operation.Alike.notesOf_eq {op op' : Operation} (alike : op.Alike op') :
    notesOf op'.attrs = notesOf op.attrs := by
  rcases alike.attrs with same | stored
  · rw [same]
  · exact notesOf_storedAttrs stored

theorem Operation.Alike.noted {op op' : Operation} (alike : op.Alike op') {counts : Value}
    (noted : Noted op.attrs counts) : Noted op'.attrs counts := by
  unfold Noted at noted ⊢
  rwa [alike.notesOf_eq]

/-- Attributes with both notes or with none. -/
def Tidy (attrs : Entries String Value) : Prop := notesOf attrs = [] ∨ ∃ counts, Noted attrs counts

theorem Operation.Alike.tidy {op op' : Operation} (alike : op.Alike op') (tidy : Tidy op.attrs) :
    Tidy op'.attrs := by
  unfold Tidy Noted at tidy ⊢
  rwa [alike.notesOf_eq]

/-- Counting leaves both notes on tidy attributes. -/
theorem Graph.noted_annotate (g : Graph) {op : Operation} (tidy : Tidy op.attrs) :
    Noted (g.annotate op).attrs (.list (op.outputs.map fun t => .int (g.uses t.name))) := by
  refine ⟨.bool (g.evaluatesAtOnce op), ?_⟩
  unfold Graph.annotate
  dsimp only
  rw [notesOf_set_of_marked (by decide), notesOf_set_of_marked (by decide)]
  rcases tidy with none | ⟨counts, evaluated, notes⟩
  · rw [none]
    rfl
  · rw [notes]
    rfl

/-! ## Notes and graph files -/

/-- A node that has no attribute with the mark of notes. -/
def Node.Unmarked (n : Node) : Prop := ∀ e ∈ n.attrs, Text.startsWith noteMark e.1 = false

instance (n : Node) : Decidable n.Unmarked := List.decidableBAll _ _

/-- Quantising puts no notes on nodes. -/
def Quantizer.KeepsUnmarked (quantizer : Quantizer) : Prop :=
  ∀ h nodes, (∀ n ∈ h.nodes, n.Unmarked) → quantizer h = .ok nodes → ∀ n ∈ nodes, n.Unmarked

/-- Nothing that is read from an unmarked node has notes. -/
theorem tidy_of_read {nodes : List Node} {n : Node} {op : Operation} (unmarked : n.Unmarked)
    (read : n.Read nodes op) : Tidy op.attrs := by
  obtain ⟨attrs, stored, same⟩ := read.attrs
  refine .inl ?_
  rw [same, notesOf_set_of_unmarked (by decide), notesOf_storedAttrs stored]
  unfold notesOf
  rw [List.filter_eq_nil_iff]
  intro e member
  simp [unmarked e member]

/-- Both notes stay out of graph files. -/
theorem isScopedKey_of_noted {attrs : Entries String Value} (tidy : Tidy attrs)
    {e : String × Value} (member : e ∈ attrs) (marked : Text.startsWith noteMark e.1) :
    isScopedKey e.1 := by
  have inside : e ∈ notesOf attrs := List.mem_filter.mpr ⟨member, by simpa using marked⟩
  rcases tidy with none | ⟨counts, evaluated, notes⟩
  · rw [none] at inside
    cases inside
  · rw [notes] at inside
    rcases List.mem_pair.mp inside with rfl | rfl
    · change isScopedKey evaluateKey
      decide
    · change isScopedKey countsKey
      decide

theorem unmarked_of_node {op : Operation} {n : Node} (tidy : Tidy op.attrs)
    (run : op.node = .ok n) : n.Unmarked := by
  intro e member
  obtain ⟨v, stored, kept, _⟩ := op.exists_attr_of_node run member
  by_contra marked
  have hidden := isScopedKey_of_noted tidy stored (by simpa using marked)
  rw [kept] at hidden
  cases hidden

theorem Graph.unmarked_of_nodes {g : Graph} {nodes : List Node}
    (tidy : ∀ op ∈ g.ops, Tidy op.attrs) (run : g.nodes = .ok nodes) : ∀ n ∈ nodes, n.Unmarked := by
  intro n member
  obtain ⟨op, inside, node⟩ := exists_op_of_mem_nodes run member
  exact unmarked_of_node (tidy op inside) node

/-- Passes keep operations tidy. -/
theorem operationInvariant_tidy [Importer] {quantizer : Quantizer}
    (keeps : quantizer.KeepsUnmarked) :
    Graph.OperationInvariant quantizer fun op => Tidy op.attrs where
  alike := fun tidy alike => alike.tidy tidy
  inlined := fun tidy => tidy
  annotated := fun g _ tidy => .inr ⟨_, g.noted_annotate tidy⟩
  bypassed := by
    intro g g' base owner _ tidy run op' member
    obtain ⟨inputs, _, _, kept⟩ := Graph.dropoutRemoved_ok run
    obtain ⟨name, _, op, found, bypassed⟩ := exists_left_of_forall₂ kept member
    have before := tidy op (Graph.mem_of_find? found)
    unfold Tidy Noted at before ⊢
    rwa [notesOf_storedAttrs bypassed.attrs]
  quantized := by
    intro g nodes nodes' tidy exported quantized _ n member op read
    exact tidy_of_read (keeps _ _ (Graph.unmarked_of_nodes tidy exported) quantized n member) read

end TensorEmit
