import Mathlib.Data.List.Induction
import Mathlib.Tactic.SplitIfs
import Matchmaking.Dict

/-!
# Dictionaries of lists

A dictionary that is made of a list of entries has these entries if no two of them have one name
(`Dict.get?_ofList_eq_some_iff`), in whatever order they come. So it is made again of the list
that it is kept as (`Dict.ofList_toList`).
-/

namespace Matchmaking

namespace Dict

variable {β : Type}

/-- Where names are different, a dictionary of entries has just these. -/
theorem get?_ofList_eq_some_iff {es : List (String × β)} {k : String} {v : β}
    (hnodup : (es.map (·.1)).Nodup) : (ofList es).get? k = some v ↔ (k, v) ∈ es := by
  induction es using List.reverseRecOn with
  | nil => exact iff_of_false (fun h => nomatch h) List.not_mem_nil
  | append_singleton es e ih =>
    rw [List.map_append, List.nodup_append] at hnodup
    obtain ⟨hes, _, hnew⟩ := hnodup
    have hlast : (ofList (es ++ [e])).get? k =
        if k = e.1 then some e.2 else (ofList es).get? k := by
      rw [ofList, List.foldl_append, List.foldl_cons, List.foldl_nil, get?_insert]
      rfl
    rw [hlast, List.mem_append, List.mem_singleton]
    split_ifs with hk
    · -- No entry before the last one has its name.
      have hout : (k, v) ∉ es := fun hmem =>
        hnew k (List.mem_map_of_mem hmem) e.1 (List.mem_singleton_self _) hk
      rw [or_iff_right hout, hk, Prod.ext_iff, Option.some_inj, and_iff_right rfl, eq_comm]
    · rw [ih hes, or_iff_left]
      exact fun heq => hk (congrArg Prod.fst heq)

theorem ofList_eq_of_perm {es es' : List (String × β)} (h : es.Perm es')
    (hnodup : (es'.map (·.1)).Nodup) : ofList es = ofList es' := by
  refine ext fun k => Option.ext fun v => ?_
  rw [get?_ofList_eq_some_iff ((h.map _).nodup_iff.2 hnodup), get?_ofList_eq_some_iff hnodup]
  exact h.mem_iff

theorem nodup_keys (d : Dict β) : (d.toList.map (·.1)).Nodup := by
  rw [List.Nodup, List.pairwise_map]
  exact d.sorted.imp String.ne_of_lt

/-- A dictionary is made of its own entries. -/
theorem ofList_toList (d : Dict β) : ofList d.toList = d := by
  refine ext fun k => Option.ext fun v => ?_
  rw [get?_ofList_eq_some_iff d.nodup_keys, get?_eq_some_iff]

/-- Every value of a dictionary has a property. -/
def All (p : β → Prop) (d : Dict β) : Prop := ∀ e ∈ d.toList, p e.2

theorem all_empty (p : β → Prop) : (∅ : Dict β).All p := nofun

theorem all_iff {p : β → Prop} {d : Dict β} : d.All p ↔ ∀ k v, d.get? k = some v → p v :=
  ⟨fun h _ _ hv => h _ (get?_eq_some_iff.1 hv), fun h _ he => h _ _ (get?_eq_some_iff.2 he)⟩

theorem All.insert {p : β → Prop} {d : Dict β} {k : String} {v : β} (h : d.All p) (hv : p v) :
    (d.insert k v).All p := by
  refine all_iff.2 fun x w hw => ?_
  rw [get?_insert] at hw
  split at hw
  · exact Option.some.inj hw ▸ hv
  · exact all_iff.1 h x w hw

theorem all_ofList {p : β → Prop} {es : List (String × β)} (h : ∀ e ∈ es, p e.2) :
    (ofList es).All p := by
  have hfold (d : Dict β) (hd : d.All p) : (es.foldl (fun d e => d.insert e.1 e.2) d).All p := by
    induction es generalizing d with
    | nil => exact hd
    | cons e es ih =>
      obtain ⟨he, hes⟩ := List.forall_mem_cons.1 h
      exact ih hes _ (hd.insert he)
  exact hfold empty (all_empty p)

theorem All.map {γ : Type} {p : β → Prop} {q : γ → Prop} {f : β → γ} {d : Dict β} (h : d.All p)
    (hf : ∀ v, p v → q (f v)) : (d.map f).All q :=
  List.forall_mem_map.2 fun e he => hf e.2 (h e he)

end Dict

end Matchmaking
