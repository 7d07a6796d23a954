import AgentSystem.ProtocolRepair

/-!
# Aliases of arguments

What the resolution of the aliases leaves of a dictionary, read from the dictionary itself: a name stands
for one property only and is no property with aliases, so that the order of the properties does not matter.
-/
namespace AgentSystem.Executor

open Json PySequence

variable {D : Type}

/-! ## Lookups -/

namespace Arguments

variable (args : Arguments D)

lemma find_set (key k : String) (value : PyValue D) :
    (args.set key value).find k = if key = k then some value else args.find k := by
  unfold find set
  dsimp only
  rw [getItem_setItem args.nodup]
  simp only [toPyStr_injective.eq_iff]

lemma getItem_filter_ne (items : List (PyStr × PyValue D)) (key k : PyStr) :
    getItem (items.filter fun item => item.1 ≠ key) k = if key = k then none else getItem items k := by
  induction items with
  | nil => simp [getItem_nil]
  | cons item items ih =>
    obtain ⟨name, value⟩ := item
    by_cases hname : name = key
    · rw [List.filter_cons_of_neg (by simpa using hname), ih, getItem_cons]
      by_cases hk : key = k
      · simp [hk]
      · simp [hk, show name ≠ k from fun e => hk (hname.symm.trans e)]
    · rw [List.filter_cons_of_pos (by simpa using hname), getItem_cons, getItem_cons, ih]
      by_cases hk : key = k
      · simp [hk, show name ≠ k from fun e => hname (e.trans hk.symm)]
      · simp [hk]

lemma find_pop (key k : String) : (args.pop key).find k = if key = k then none else args.find k := by
  unfold find pop
  dsimp only
  rw [getItem_filter_ne]
  simp only [toPyStr_injective.eq_iff]

lemma get_of_find {key : String} {value : PyValue D} (h : args.find key = some value) :
    args.get key = value := by
  unfold get
  rw [h]
  rfl

lemma find_of_get {key : String} (h : isBlank (args.get key) = false) : args.find key = some (args.get key) := by
  unfold get at h ⊢
  cases hfind : args.find key with
  | none =>
    rw [hfind] at h
    cases h
  | some value => rfl

end Arguments

/-! ## The table -/

def aliasesOf (prop : String) : List String := (paramAliases.lookup prop).getD []

lemma mem_aliasesOf {prop name : String} (h : name ∈ aliasesOf prop) :
    ∃ names, (prop, names) ∈ paramAliases ∧ name ∈ names := by
  unfold aliasesOf at h
  cases hlookup : paramAliases.lookup prop with
  | none =>
    rw [hlookup] at h
    cases h
  | some names =>
    rw [hlookup] at h
    obtain ⟨before, after, heq, -⟩ := List.lookup_eq_some_iff.mp hlookup
    exact ⟨names, by rw [heq]; exact List.mem_append_right _ List.mem_cons_self, h⟩

/-- A name is the alias of one property. -/
lemma alias_unique {prop prop' name : String} (h : name ∈ aliasesOf prop) (h' : name ∈ aliasesOf prop') :
    prop = prop' := by
  have htable : ∀ entry ∈ paramAliases, ∀ entry' ∈ paramAliases, ∀ name ∈ entry.2, name ∈ entry'.2 →
      entry.1 = entry'.1 := by decide
  obtain ⟨names, hentry, hname⟩ := mem_aliasesOf h
  obtain ⟨names', hentry', hname'⟩ := mem_aliasesOf h'
  exact htable _ hentry _ hentry' name hname hname'

/-- An alias has no aliases. -/
lemma aliasesOf_alias {prop name : String} (h : name ∈ aliasesOf prop) : aliasesOf name = [] := by
  have htable : ∀ entry ∈ paramAliases, ∀ name ∈ entry.2, aliasesOf name = [] := by decide
  obtain ⟨names, hentry, hname⟩ := mem_aliasesOf h
  exact htable _ hentry name hname

/-! ## What fills a property -/

/-- The alias whose value a property gets. -/
def filler (args : Arguments D) (prop : String) : Option String :=
  if isBlank (args.get prop) then (aliasesOf prop).find? fun name => !isBlank (args.get name) else none

lemma resolveAlias_eq (args : Arguments D) (prop : String) : resolveAlias args prop =
    (filler args prop).map fun name => (args.pop name).set prop (args.get name) := by
  unfold resolveAlias filler aliasesOf
  split_ifs <;> rfl

lemma filler_mem {args : Arguments D} {prop name : String} (h : filler args prop = some name) :
    name ∈ aliasesOf prop ∧ isBlank (args.get prop) = true ∧ isBlank (args.get name) = false := by
  unfold filler at h
  split_ifs at h with hblank
  have hfull := List.find?_some h
  exact ⟨List.mem_of_find?_eq_some h, hblank, by simpa using hfull⟩

lemma filler_alias {args : Arguments D} {prop name : String} (h : name ∈ aliasesOf prop) :
    filler args name = none := by
  unfold filler
  rw [aliasesOf_alias h]
  simp

/-- What a key holds after the aliases of these properties are resolved. -/
def resolvedFind (args : Arguments D) (props : List String) (key : String) : Option (PyValue D) :=
  match if key ∈ props then filler args key else none with
  | some name => args.find name
  | none => if ∃ prop ∈ props, filler args prop = some key then none else args.find key

/-- An alias is there or was taken. -/
lemma resolvedFind_alias {args : Arguments D} {props : List String} {prop name : String}
    (h : name ∈ aliasesOf prop) : resolvedFind args props name =
      if ∃ prop ∈ props, filler args prop = some name then none else args.find name := by
  unfold resolvedFind
  rw [filler_alias h, ite_self]

lemma resolvedFind_filled {args : Arguments D} {props : List String} {prop name : String}
    (hmem : prop ∈ props) (h : filler args prop = some name) :
    resolvedFind args props prop = args.find name := by
  unfold resolvedFind
  rw [if_pos hmem, h]

section Step

variable {args current : Arguments D} {props : List String}

lemma get_of_resolvedFind (h : ∀ key, current.find key = resolvedFind args props key) (key : String) :
    current.get key = (resolvedFind args props key).getD .none := by
  unfold Arguments.get
  rw [h]

/-- A property that is not filled keeps what it holds. -/
lemma get_property (h : ∀ key, current.find key = resolvedFind args props key) {prop : String}
    (haliases : aliasesOf prop ≠ []) (hfiller : (if prop ∈ props then filler args prop else none) = none) :
    current.get prop = args.get prop := by
  have hfree : ¬ ∃ other ∈ props, filler args other = some prop := by
    rintro ⟨other, -, hother⟩
    exact haliases (aliasesOf_alias (filler_mem hother).1)
  rw [get_of_resolvedFind h]
  unfold resolvedFind
  rw [hfiller]
  dsimp only
  rw [if_neg hfree]
  rfl

lemma blank_alias (h : ∀ key, current.find key = resolvedFind args props key) {prop name : String}
    (hname : name ∈ aliasesOf prop) (hblank : isBlank (args.get name) = true) :
    isBlank (current.get name) = true := by
  rw [get_of_resolvedFind h, resolvedFind_alias hname]
  split_ifs
  · rfl
  · exact hblank

lemma get_alias (h : ∀ key, current.find key = resolvedFind args props key) {prop name : String}
    (hname : name ∈ aliasesOf prop) (hmem : prop ∉ props) : current.get name = args.get name := by
  have hfree : ¬ ∃ other ∈ props, filler args other = some name := by
    rintro ⟨other, hother, hfiller⟩
    rw [alias_unique (filler_mem hfiller).1 hname] at hother
    exact hmem hother
  rw [get_of_resolvedFind h, resolvedFind_alias hname, if_neg hfree]
  rfl

/-- A property that had its turn is not filled again. -/
lemma filler_again (h : ∀ key, current.find key = resolvedFind args props key) {prop : String}
    (haliases : aliasesOf prop ≠ []) (hmem : prop ∈ props) : filler current prop = none := by
  cases hfiller : filler args prop with
  | some name =>
    have hfull : isBlank (current.get prop) = false := by
      rw [get_of_resolvedFind h, resolvedFind_filled hmem hfiller,
        args.find_of_get (filler_mem hfiller).2.2]
      exact (filler_mem hfiller).2.2
    unfold filler
    rw [hfull]
    rfl
  | none =>
    have hkept := get_property h haliases (by rw [if_pos hmem, hfiller])
    unfold filler at hfiller ⊢
    rw [hkept]
    split_ifs with hblank
    · rw [if_pos hblank, List.find?_eq_none] at hfiller
      rw [List.find?_eq_none]
      intro name hname
      have hargs := hfiller name hname
      simp only [Bool.not_eq_true', Bool.not_eq_false] at hargs ⊢
      exact blank_alias h hname hargs
    · rfl

/-- A property is filled at its first turn, and never again. -/
lemma filler_current (h : ∀ key, current.find key = resolvedFind args props key) (prop : String) :
    filler current prop = if prop ∈ props then none else filler args prop := by
  by_cases haliases : aliasesOf prop = []
  · unfold filler
    rw [haliases]
    simp
  · split_ifs with hmem
    · exact filler_again h haliases hmem
    · have hfind : (aliasesOf prop).find? (fun name => !isBlank (current.get name)) =
          (aliasesOf prop).find? fun name => !isBlank (args.get name) := by
        refine List.find?_congr fun name hname => ?_
        rw [get_alias h hname hmem]
      unfold filler
      rw [get_property h haliases (if_neg hmem), hfind]

lemma resolvedFind_step_none {prop : String} (hfiller : (if prop ∈ props then none else filler args prop) = none)
    (key : String) : resolvedFind args (props ++ [prop]) key = resolvedFind args props key := by
  have hmem : (if key ∈ props ++ [prop] then filler args key else none) =
      if key ∈ props then filler args key else none := by
    by_cases hkey : key ∈ props
    · simp [hkey]
    · by_cases heq : key = prop
      · subst heq
        rw [if_neg hkey] at hfiller ⊢
        rw [hfiller, ite_self]
      · simp [hkey, heq]
  have htaken : (∃ other ∈ props ++ [prop], filler args other = some key) ↔
      ∃ other ∈ props, filler args other = some key := by
    constructor
    · rintro ⟨other, hother, hother'⟩
      rcases List.mem_append.mp hother with hold | hnew
      · exact ⟨other, hold, hother'⟩
      · rw [List.mem_singleton] at hnew
        subst hnew
        split_ifs at hfiller with hold
        · exact ⟨other, hold, hother'⟩
        · rw [hfiller] at hother'
          cases hother'
    · rintro ⟨other, hother, hother'⟩
      exact ⟨other, List.mem_append_left _ hother, hother'⟩
  unfold resolvedFind
  simp only [hmem, htaken]

lemma resolvedFind_step_some (h : ∀ key, current.find key = resolvedFind args props key) {prop name : String}
    (hmem : prop ∉ props) (hfiller : filler args prop = some name) (key : String) :
    ((current.pop name).set prop (current.get name)).find key = resolvedFind args (props ++ [prop]) key := by
  have hnew : prop ∈ props ++ [prop] := List.mem_append_right _ (List.mem_singleton_self prop)
  obtain ⟨hname, -, hfull⟩ := filler_mem hfiller
  rw [Arguments.find_set, Arguments.find_pop, get_alias h hname hmem]
  by_cases hprop : prop = key
  · subst hprop
    rw [if_pos rfl, resolvedFind_filled hnew hfiller]
    exact (args.find_of_get hfull).symm
  · rw [if_neg hprop]
    by_cases hkey : name = key
    · subst hkey
      rw [if_pos rfl, resolvedFind_alias hname, if_pos ⟨prop, hnew, hfiller⟩]
    · rw [if_neg hkey, h]
      have hold : (if key ∈ props ++ [prop] then filler args key else none) =
          if key ∈ props then filler args key else none := by
        by_cases hkeyMem : key ∈ props
        · simp [hkeyMem]
        · simp [hkeyMem, Ne.symm hprop]
      have htaken : (∃ other ∈ props ++ [prop], filler args other = some key) ↔
          ∃ other ∈ props, filler args other = some key := by
        constructor
        · rintro ⟨other, hother, hother'⟩
          rcases List.mem_append.mp hother with hold | hnew
          · exact ⟨other, hold, hother'⟩
          · rw [List.mem_singleton.mp hnew, hfiller] at hother'
            exact absurd (Option.some.inj hother') hkey
        · rintro ⟨other, hother, hother'⟩
          exact ⟨other, List.mem_append_left _ hother, hother'⟩
      unfold resolvedFind
      simp only [hold, htaken]

end Step

/-! ## All properties -/

lemma resolveAliases_append (r : Resolved D) (props : List String) (prop : String) :
    r.resolveAliases (props ++ [prop]) =
      match resolveAlias (r.resolveAliases props).args prop with
      | some args => { r.resolveAliases props with args := args }.use .aliasMapping
      | none => r.resolveAliases props := by
  unfold Resolved.resolveAliases
  rw [List.foldl_append]
  rfl

lemma use_args (r : Resolved D) (strategy : RepairStrategy) : (r.use strategy).args = r.args := by
  unfold Resolved.use
  split_ifs <;> rfl

lemma use_errors (r : Resolved D) (strategy : RepairStrategy) : (r.use strategy).errors = r.errors := by
  unfold Resolved.use
  split_ifs <;> rfl

/-- The dictionary after the aliases of all properties are resolved. -/
theorem find_resolveAliases (r : Resolved D) (props : List String) (key : String) :
    (r.resolveAliases props).args.find key = resolvedFind r.args props key := by
  induction props using List.reverseRecOn generalizing key with
  | nil => simp [Resolved.resolveAliases, resolvedFind]
  | append_singleton props prop ih =>
    have hcurrent := filler_current ih prop
    rw [resolveAliases_append, resolveAlias_eq, hcurrent]
    cases hfiller : (if prop ∈ props then none else filler r.args prop) with
    | none =>
      rw [resolvedFind_step_none hfiller]
      exact ih key
    | some name =>
      split_ifs at hfiller with hmem
      rw [← resolvedFind_step_some ih hmem hfiller key]
      dsimp only [Option.map_some]
      rw [use_args]

/-- Where no property is filled, nothing changes. -/
lemma resolveAliases_of_unfilled (r : Resolved D) {props : List String}
    (h : ∀ prop ∈ props, filler r.args prop = none) : r.resolveAliases props = r := by
  induction props using List.reverseRecOn with
  | nil => rfl
  | append_singleton props prop ih =>
    have hsame := ih fun other hother => h other (List.mem_append_left _ hother)
    have hnone := h prop (List.mem_append_right _ (List.mem_singleton_self prop))
    rw [resolveAliases_append, hsame, resolveAlias_eq, hnone]
    rfl

end AgentSystem.Executor
