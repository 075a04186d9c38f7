/-
Azsl.Proofs.Workspace.Definition — the definitions that an editor is led to are the right ones.

After any operations, going to a definition starts from the name of a function that is called at
the position, and leads to the last signature with that name in the document itself or in the
first of its includes that has one. Hovering shows the same signature (`run_definitions`).
-/
import Azsl.Proofs.Parse.Starts
import Azsl.Proofs.Symbol.Functions
import Azsl.Proofs.Syntax.Lookup
import Azsl.Proofs.Workspace.InSync
import Azsl.Workspace.Query

namespace Azsl

/-! ## Calls -/

/-- A node reaches over an offset, or is empty and stands there. -/
def Node.IsAt (node : Node) (offset : Nat) : Prop :=
  node.start.byte ≤ offset ∧
    (offset < node.stop.byte ∨ node.start.byte = offset ∧ node.stop.byte = offset)

/-- A function with a name is called at a position: the identifier there spells the name. -/
def Document.CallsAt (document : Document) (position : Position) (name : String) : Prop :=
  ∃ focus ∈ (Focus.ofRoot (parse document.text.chars none).root).descendants,
    Symbols.isCall focus = true ∧ focus.node.IsAt (document.text.offsetAt position) ∧
      Symbols.sourceOf document.text focus.node = name

/-- What spans the point of an offset is at the offset. -/
theorem Node.isAt_of_fit {chars : List Char} {node : Node} {offset : Nat}
    (hstart : node.start.Indexed (pointAmong (lineStarts chars)))
    (hstop : node.stop.Indexed (pointAmong (lineStarts chars)))
    (h : Focus.fit (pointAmong (lineStarts chars) offset) (pointAmong (lineStarts chars) offset)
      node = .spans) : node.IsAt offset := by
  rw [Location.Indexed] at hstart hstop
  unfold Focus.fit at h
  rw [hstart, hstop] at h
  have hle : ∀ a b : Point, a ≤ b ↔ ¬ b < a := fun _ _ => Iff.rfl
  simp only [hle, pointAmong_lt_iff] at h
  split_ifs at h with hskip hempty hpast
  unfold IsAt
  omega

/-- Whatever is not a whole file is below the root. -/
theorem Focus.mem_below_root {chars : List Char} {focus : Focus}
    (hmem : focus ∈ (Focus.ofRoot (parse chars none).root).descendants)
    (hkind : focus.kind ≠ .sourceFile) :
    focus.node ∈ (parse chars none).root.children.flatMap Node.descendants := by
  refine Focus.mem_below hmem fun hroot => hkind ?_
  rw [hroot, Focus.kind, Focus.ofRoot, Parse.parse_none_root]
  rfl

/-- Offsets of positions have the points of the index of lines. -/
theorem SourceText.pointAt_offsetAt (chars : List Char) (position : Position) :
    (ofChars chars).pointAt ((ofChars chars).offsetAt position)
      = pointAmong (lineStarts chars) ((ofChars chars).offsetAt position) := by
  obtain ⟨left, right, hchars, hoffset⟩ := bound_offsetAt chars position
  have hle : (ofChars chars).offsetAt position ≤ (ofChars chars).size := by
    show _ ≤ byteLength chars
    rw [← hoffset, hchars, byteLength_append]
    omega
  rw [pointAt, Nat.min_eq_left hle]
  rfl

/-- The call that a document finds at a position is there. -/
theorem Document.Current.callsAt {document : Document} (h : document.Current)
    {position : Position} {name : String}
    (hcall : Symbols.callAt? document.text document.tree position = some name) :
    document.CallsAt position name := by
  unfold Symbols.callAt? at hcall
  simp only at hcall
  split at hcall
  · rename_i hisCall
    have hkind := (Bool.and_eq_true_iff.mp hisCall).1
    rw [h.parsed] at hisCall hkind hcall
    obtain hroot | ⟨hmem, hfit⟩ := Focus.namedAt_improves
      (.ofRoot (parse document.text.chars none).root)
      (document.text.pointAt (document.text.offsetAt position))
      (document.text.pointAt (document.text.offsetAt position))
    · rw [hroot, Focus.ofRoot, Parse.parse_none_root] at hkind
      cases hkind
    · refine ⟨_, hmem, hisCall, ?_, Option.some.inj hcall⟩
      obtain ⟨hstart, hstop⟩ := Parse.indexed_of_mem (Focus.mem_below_root hmem (by
        rw [beq_iff_eq.mp hkind]
        simp))
      have hpoint := SourceText.pointAt_offsetAt document.text.chars position
      rw [← h.indexed] at hpoint
      rw [hpoint] at hstart hstop hfit ⊢
      exact Node.isAt_of_fit hstart hstop hfit
  · cases hcall

/-! ## Signatures -/

/-- The function that a document has for a name is that of its last signature with the name, and
the position of the signature leads back to its start. -/
theorem Document.Current.signature {document : Document} (h : document.Current)
    (hfunctions : document.functions
      = .ofList (Symbols.collect document.text document.tree).functions)
    {name : String} {function : FunctionSymbol}
    (hget : document.functions.get? name = some function) :
    ∃ signature, (Symbols.signaturesOf document.text (parse document.text.chars none).root
        name).getLast? = some signature ∧
      document.text.offsetAt function.range.start = signature.node.start.byte ∧
      function.text = Symbols.sourceOf document.text signature.node := by
  have hlast : (FunctionTable.ofList (Symbols.functionsOf document.text document.tree)).get? name
      = some function := by
    rw [← hget, hfunctions]
    rfl
  rw [Symbols.get?_functionsOf, h.parsed] at hlast
  obtain ⟨signature, hsignature, hfunction⟩ := Option.bind_eq_some_iff.mp hlast
  obtain ⟨identifier, hidentifier, rfl⟩ := Option.map_eq_some_iff.mp hfunction
  refine ⟨signature, hsignature, ?_, rfl⟩
  -- the signature is a node of the tree and has its name below it
  obtain ⟨hvisible, -⟩ := List.mem_filter.mp (List.mem_of_getLast? hsignature)
  obtain ⟨hvisible, hkind⟩ := List.mem_filter.mp hvisible
  have hkind : signature.node.kind = .leadingTypeFunctionSignature := beq_iff_eq.mp hkind
  have hnode := Focus.mem_below_root (Focus.mem_descendants_of_visible hvisible)
    (by rw [Focus.kind, hkind]; simp)
  have hname : identifier.kind = .identifier := by
    simpa using List.find?_some hidentifier
  have hbelow : identifier ∈ signature.node.children.flatMap Node.descendants := by
    have hmem := List.mem_of_find?_eq_some hidentifier
    rw [Node.descendants_eq] at hmem
    rcases List.mem_cons.mp hmem with rfl | hmem
    · rw [hname] at hkind
      cases hkind
    · exact hmem
  have hstart := Parse.offsetAt_positionAt_start hnode (by simp [hkind]) hbelow hname
  rwa [← h.indexed] at hstart

/-! ## Definitions -/

namespace Workspace

/-- The document that has the function for a name: the document that asks, or else the first of
its includes that has one. -/
def Provides (workspace : Workspace) (document : Document) (name : String) (owner : Document) :
    Prop :=
  (owner.functions.get? name).isSome = true ∧
    (owner = document ∨ document.functions.get? name = none ∧
      ∃ before after, document.includes = before ++ owner.uri :: after ∧
        ∀ earlier ∈ before, ∀ other, workspace.get? earlier = some other →
          other.functions.get? name = none)

/-- Going to a definition starts from a call and leads to the last signature with the name in the
document that provides it. Hovering there ends with the source of that signature. -/
def LeadsTo (workspace : Workspace) (uri : Uri) (position : Position) (target : Uri)
    (start : Position) : Prop :=
  ∃ document owner name signature, workspace.get? uri = some document ∧
    document.CallsAt position name ∧ workspace.get? target = some owner ∧
    workspace.Provides document name owner ∧
    (Symbols.signaturesOf owner.text (parse owner.text.chars none).root name).getLast?
      = some signature ∧
    owner.text.offsetAt start = signature.node.start.byte ∧
    ∃ front, workspace.hover? uri position
      = some (front ++ Symbols.sourceOf owner.text signature.node)

/-- What an editor is told about the function called at a position is right, and it is shown a
text exactly if it is led to a definition. -/
structure DefinitionsSound (workspace : Workspace) : Prop where
  definition : ∀ uri position target start,
    workspace.definition? uri position = some (target, start) →
      workspace.LeadsTo uri position target start
  hover : ∀ uri position,
    (workspace.hover? uri position).isSome = (workspace.definition? uri position).isSome

variable {workspace : Workspace}

/-- A function that is found is one of the document that provides the name. -/
theorem provides_of_findFunction? {uri target : Uri}
    {document : Document} (hget : workspace.get? uri = some document) {name : String}
    {function : FunctionSymbol}
    (h : workspace.findFunction? uri name = some (target, function)) :
    ∃ owner, workspace.get? target = some owner ∧ workspace.Provides document name owner ∧
      owner.functions.get? name = some function := by
  unfold findFunction? at h
  simp only [hget] at h
  split at h
  · rename_i own hown
    obtain ⟨rfl, rfl⟩ := Prod.mk.inj (Option.some.inj h)
    have huri := (get?_eq_some_iff.mp hget).2
    exact ⟨document, by rw [huri, hget], ⟨by rw [hown]; rfl, .inl rfl⟩, hown⟩
  · rename_i hnone
    obtain ⟨before, found, after, hincludes, hfound, hbefore⟩ := List.findSome?_eq_some_iff.mp h
    split at hfound
    · cases hfound
    · rename_i owner howner
      obtain ⟨own, hown, hpair⟩ := Option.map_eq_some_iff.mp hfound
      obtain ⟨rfl, rfl⟩ := Prod.mk.inj hpair
      obtain rfl := (get?_eq_some_iff.mp howner).2
      refine ⟨owner, howner, ⟨by rw [hown]; rfl, .inr ⟨hnone, before, after, hincludes, ?_⟩⟩, hown⟩
      intro earlier hmem other hother
      have := hbefore earlier hmem
      simpa [hother] using this

theorem SyncedBut.leadsTo (h : workspace.SyncedBut []) {uri target : Uri} {position start : Position}
    (hdefinition : workspace.definition? uri position = some (target, start)) :
    workspace.LeadsTo uri position target start := by
  obtain ⟨⟨owner, function⟩, hcalled, hpair⟩ := Option.map_eq_some_iff.mp hdefinition
  obtain ⟨rfl, rfl⟩ := Prod.mk.inj hpair
  have hhover : workspace.hover? uri position = some function.hoverText := by
    rw [hover?, hcalled]
    rfl
  unfold calledAt? at hcalled
  split at hcalled
  · cases hcalled
  · rename_i document hget
    obtain ⟨name, hcall, hfind⟩ := Option.bind_eq_some_iff.mp hcalled
    obtain ⟨provider, hprovider, hprovides, hfunction⟩ :=
      provides_of_findFunction? hget hfind
    have hdocument := (get?_eq_some_iff.mp hget).1
    have hmem := (get?_eq_some_iff.mp hprovider).1
    obtain ⟨signature, hlast, hstart, htext⟩ :=
      (h.current provider hmem).signature (h.functions provider hmem (by simp)) hfunction
    refine ⟨document, provider, name, signature, hget, (h.current document hdocument).callsAt hcall,
      hprovider, hprovides, hlast, hstart, ?_⟩
    rw [hhover, ← htext, FunctionSymbol.hoverText]
    cases function.comment with
    | none => exact ⟨"", by simp⟩
    | some comment => exact ⟨comment ++ "\n", rfl⟩

/-- After any operations, editors are led to the right definitions and shown the right texts. -/
theorem run_definitions (settings : Settings) (operations : List Operation) :
    ((empty settings).run operations).DefinitionsSound where
  definition _ _ _ _ := (run_syncedBut settings operations).leadsTo
  hover uri position := by rw [hover?, definition?, Option.isSome_map, Option.isSome_map]

/-- A call of a function that an included document declares leads there. -/
example :
    let shared : Uri := ⟨"file", some .empty, "/b.azsl", none, none⟩
    let caller : Uri := ⟨"file", some .empty, "/a.azsl", none, none⟩
    ((empty .standard).run
      [.opened .empty shared 1 "int x; void f();".toList,
       .opened .empty caller 1 "#include <b.azsl>\nvoid g() \x7b f(); \x7d".toList]).definition?
      caller ⟨1, 11⟩ = some (shared, ⟨0, 7⟩) := by
  decide +kernel

end Workspace

end Azsl
