import KVServe.Controller.OnlineController
import Std.Data.String.ToInt

/-!
# KVServe.Controller.Persistence

`save` and `load` of the bandit state. A key is one string with two separators, and a number has
no separator in it: the first two parts are the numbers and the rest is the profile id, **whatever
characters it has**.
-/

namespace KVServe.Controller

/-! ### Keys as strings -/

/-- `s.split(sep, maxsplit)`. -/
def splitMax (sep : Char) : Nat → List Char → List (List Char)
  | 0, s => [s]
  | maxsplit + 1, s =>
      match s.dropWhile (· ≠ sep) with
      | [] => [s.takeWhile (· ≠ sep)]
      | _ :: rest => s.takeWhile (· ≠ sep) :: splitMax sep maxsplit rest

/-- The key of an entry, as it is written. -/
def keyText (key : BanditKey) : String :=
  key.1.repr ++ "_" ++ key.2.1.repr ++ "_" ++ key.2.2

/-- `ValueError`: invalid literal for `int`. -/
inductive InvalidLiteral
  | invalid (text : String)
  deriving DecidableEq, Repr

/-- `int(text)`, of the literals that `str` writes. -/
def readInt (text : String) : Except InvalidLiteral Int :=
  match text.toInt? with
  | some i => .ok i
  | none => .error (.invalid text)

theorem splitMax_append {sep : Char} {maxsplit : Nat} {head rest : List Char} (h : sep ∉ head) :
    splitMax sep (maxsplit + 1) (head ++ sep :: rest) = head :: splitMax sep maxsplit rest := by
  have hhead : ∀ c ∈ head, decide (c ≠ sep) = true := fun c hc =>
    decide_eq_true fun heq => h (heq ▸ hc)
  have hdrop : (head ++ sep :: rest).dropWhile (· ≠ sep) = sep :: rest := by
    rw [List.dropWhile_append_of_pos hhead, List.dropWhile_cons_of_neg (by simp)]
  have htake : (head ++ sep :: rest).takeWhile (· ≠ sep) = head := by
    rw [List.takeWhile_append_of_pos hhead, List.takeWhile_cons_of_neg (by simp), List.append_nil]
  rw [splitMax, hdrop, htake]

theorem readInt_repr (i : Int) : readInt i.repr = .ok i := by
  rw [readInt, Int.toInt?_repr]

/-- A number has no separator in it. -/
theorem not_mem_repr (i : Int) : '_' ∉ i.repr.toList := by
  rw [Int.repr_eq_if]
  split
  · simp
  · simp

theorem toList_keyText (key : BanditKey) : (keyText key).toList =
    key.1.repr.toList ++ '_' :: (key.2.1.repr.toList ++ '_' :: key.2.2.toList) := by
  simp [keyText]

/-- **The parts of a key** are those it was written from. -/
theorem splitMax_keyText (key : BanditKey) : splitMax '_' 2 (keyText key).toList =
    [key.1.repr.toList, key.2.1.repr.toList, key.2.2.toList] := by
  rw [toList_keyText, splitMax_append (not_mem_repr key.1), splitMax_append (not_mem_repr key.2.1)]
  rfl

theorem keyText_injective : Function.Injective keyText := by
  intro key key' h
  have hparts := splitMax_keyText key
  rw [h, splitMax_keyText key'] at hparts
  simp only [List.cons.injEq, String.toList_inj, Int.repr_inj] at hparts
  obtain ⟨hbucket, hinterval, hprofile, -⟩ := hparts
  exact Prod.ext hbucket.symm (Prod.ext hinterval.symm hprofile.symm)

/-! ### Files -/

/-- The data of a file. -/
structure BanditFile where
  alpha : ℚ
  state : List (String × (Nat × ℚ))
  deriving DecidableEq, Repr

namespace BanditState

/-- `save`. -/
def save (bandit : BanditState) : BanditFile where
  alpha := bandit.alpha
  state := Assoc.ofItems (bandit.state.map fun e => (keyText e.1, e.2))

/-- The loop of `load`. -/
def loadItems : List (String × (Nat × ℚ)) → BanditState → Except InvalidLiteral BanditState
  | [], bandit => .ok bandit
  | (keyStr, stats) :: rest, bandit =>
      match splitMax '_' 2 keyStr.toList with
      | [bucketId, intervalId, profileId] => do
          let bucketId ← readInt (String.ofList bucketId)
          let intervalId ← readInt (String.ofList intervalId)
          loadItems rest (bandit.put (bucketId, intervalId, String.ofList profileId) stats)
      | _ => loadItems rest bandit

/-- `load`: what the manager held before is gone. -/
def load (_bandit : BanditState) (file : BanditFile) : Except InvalidLiteral BanditState :=
  loadItems file.state { alpha := file.alpha }

/-! ### The round trip -/

theorem save_state (bandit : BanditState) :
    bandit.save.state = bandit.state.map fun e => (keyText e.1, e.2) := by
  refine Assoc.ofItems_eq ?_
  rw [List.map_map]
  have hkeys : (Prod.fst ∘ fun e : BanditKey × (Nat × ℚ) => (keyText e.1, e.2)) =
      keyText ∘ Prod.fst := rfl
  rw [hkeys, ← List.map_map]
  exact bandit.distinct.map keyText_injective

/-- One entry is read. -/
theorem loadItems_cons (key : BanditKey) (stats : Nat × ℚ) (rest : List (String × (Nat × ℚ)))
    (bandit : BanditState) :
    loadItems ((keyText key, stats) :: rest) bandit = loadItems rest (bandit.put key stats) := by
  rw [loadItems, splitMax_keyText]
  simp only [String.ofList_toList, readInt_repr]
  rfl

/-- All of them are, in their order. -/
theorem loadItems_map (items : List (BanditKey × (Nat × ℚ))) (bandit : BanditState)
    (h : ((bandit.state ++ items).map Prod.fst).Nodup) :
    loadItems (items.map fun e => (keyText e.1, e.2)) bandit =
      .ok ⟨bandit.alpha, bandit.state ++ items, h⟩ := by
  induction items generalizing bandit with
  | nil =>
      rw [List.map_nil, loadItems]
      simp
  | cons e rest ih =>
      have hnot : e.1 ∉ bandit.state.map Prod.fst := by
        intro hmem
        rw [List.map_append] at h
        exact List.disjoint_of_nodup_append h hmem List.mem_cons_self
      have hput : (bandit.put e.1 e.2).state = bandit.state ++ [e] := Assoc.set_of_not_mem hnot
      rw [List.map_cons, loadItems_cons,
        ih (bandit.put e.1 e.2) (by rw [hput, List.append_assoc]; exact h)]
      simp only [Except.ok.injEq, BanditState.mk.injEq]
      refine ⟨rfl, ?_⟩
      rw [hput, List.append_assoc, List.singleton_append]

/-- **What is loaded is what was saved**: every entry, under its own key. -/
theorem load_save (bandit old : BanditState) :
    Function.Injective keyText ∧ bandit.save.state.length = bandit.state.length ∧
      old.load bandit.save = .ok bandit := by
  refine ⟨keyText_injective, ?_, ?_⟩
  · rw [save_state, List.length_map]
  · rw [load, save_state]
    exact loadItems_map bandit.state { alpha := bandit.alpha } bandit.distinct

end BanditState

end KVServe.Controller
