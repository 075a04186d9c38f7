/-
Azsl.Proofs.Symbol.Functions — the function that a table has for a name.

Functions are collected signature by signature, and a table keeps the last one of each name. So
the function for a name is that of the last signature with the name (`get?_functionsOf`).
-/
import Azsl.Symbol.Collect
import Mathlib.Data.List.Induction

namespace Azsl

/-! ## Tables -/

namespace FunctionTable

theorem get?_insert (table : FunctionTable) (function : FunctionSymbol) (name : String) :
    (table.insert function).get? name
      = if function.name = name then some function else table.get? name := by
  have hkept : (table.functions.filter (·.name ≠ function.name)).find? (·.name == name)
      = if function.name = name then none else table.get? name := by
    rw [List.find?_filter]
    split
    · rename_i hname
      rw [List.find?_eq_none]
      simp [hname]
    · rename_i hname
      refine congrFun (congrArg List.find? (funext fun other => ?_)) table.functions
      by_cases hother : other.name = name <;> simp [hother, Ne.symm hname]
  rw [get?, insert, List.find?_append, hkept]
  split
  · rename_i hname
    simp [hname]
  · rename_i hname
    simp [hname]

/-- A table has the last of several functions with one name. -/
theorem get?_ofList (functions : List FunctionSymbol) (name : String) :
    (ofList functions).get? name = functions.reverse.find? (·.name == name) := by
  induction functions using List.reverseRecOn with
  | nil => rfl
  | append_singleton front function ih =>
    rw [ofList, List.foldl_append, List.foldl_cons, List.foldl_nil, get?_insert,
      List.reverse_append, List.reverse_singleton, List.singleton_append, List.find?_cons]
    split
    · rename_i hname
      simp [hname]
    · rename_i hname
      rw [beq_eq_false_iff_ne.mpr hname]
      exact ih

end FunctionTable

/-! ## Signatures -/

namespace Symbols

/-- The name of a signature is the first identifier in it. -/
def nameOf? (text : SourceText) (signature : Focus) : Option String :=
  (signature.node.descendants.find? (·.kind == .identifier)).map (sourceOf text)

/-- The signatures of a tree with a name, outside of errors and in the order of the source. -/
def signaturesOf (text : SourceText) (root : Node) (name : String) : List Focus :=
  ((Focus.ofRoot root).ofKind .leadingTypeFunctionSignature).filter (nameOf? text · == some name)

theorem function?_any (text : SourceText) (signature : Focus) (name : String) :
    (function? text signature).any (·.name == name) = (nameOf? text signature == some name) := by
  rw [function?, nameOf?]
  cases signature.node.descendants.find? (·.kind == .identifier) with
  | none => rfl
  | some identifier => rfl

/-- The function for a name is that of the last signature with the name. -/
theorem get?_functionsOf (text : SourceText) (tree : SyntaxTree) (name : String) :
    (FunctionTable.ofList (functionsOf text tree)).get? name
      = (signaturesOf text tree.root name).getLast?.bind (function? text) := by
  rw [FunctionTable.get?_ofList, functionsOf, ← List.filterMap_reverse, List.find?_filterMap,
    signaturesOf, ← List.head?_reverse, ← List.filter_reverse, List.head?_filter]
  simp only [function?_any]

end Symbols

end Azsl
