import StyleModule.Extraction
import StyleModule.Proofs.OrderedMap

/-!
# What additions make of an extraction

An `Addition` is what is found out about a selector at one time. Additions of one kind change one
map, and they change it in one way (`Extraction.addAll_eq`), so it does not matter how additions of
different kinds follow each other.

What a run of additions makes of nothing can be told from the additions for each selector
(`Extraction.addAll_empty`). The selectors of a map stand in the order in which they first came for
that map. Declarations and masks are the last ones given, groups of conditions are all kept in
order, and so are topics without their repetitions.
-/

namespace StyleModule

open OrderedMap

/-- What is added to an extraction at one time. -/
inductive Addition where
  /-- The declarations of a selector. -/
  | record (selector : String) (record : StyleRecord)
  /-- One more group of conditions of a selector. -/
  | conditions (selector : String) (group : List Condition)
  /-- The mask of a selector. -/
  | mask (selector : String) (mask : UInt64)
  /-- A topic that a selector is subscribed to. -/
  | topic (selector topic : String)

namespace Addition

/-- A selector with its declarations. -/
def record? : Addition → Option (String × StyleRecord)
  | record selector r => some (selector, r)
  | _ => none

/-- A selector with a group of conditions. -/
def conditions? : Addition → Option (String × List Condition)
  | conditions selector group => some (selector, group)
  | _ => none

/-- A selector with its mask. -/
def mask? : Addition → Option (String × UInt64)
  | mask selector m => some (selector, m)
  | _ => none

/-- A selector with a topic. -/
def topic? : Addition → Option (String × String)
  | topic selector t => some (selector, t)
  | _ => none

end Addition

namespace Extraction

/-- An extraction with one addition. -/
def add (e : Extraction) : Addition → Extraction
  | .record selector r => e.withRecord selector r
  | .conditions selector group => e.withConditions selector group
  | .mask selector m => e.withMask selector m
  | .topic selector t => e.subscribe selector t

/-- An extraction with additions, one after the other. -/
def addAll (e : Extraction) (as : List Addition) : Extraction := as.foldl add e

/-! ### One map at a time -/

/-- A map after a run of additions is the map after those that are about it. -/
theorem addAll_map {α β : Type} (map : Extraction → OrderedMap α) (f : Option α → β → α)
    (part? : Addition → Option (String × β))
    (hadd : ∀ e a, map (add e a) = match part? a with
      | some c => (map e).upsert c.1 fun old => f old c.2
      | none => map e) (e : Extraction) (as : List Addition) :
    map (e.addAll as) = (map e).upsertAll f (as.filterMap part?) := by
  rw [addAll, upsertAll, List.foldl_filterMap]
  refine (List.foldl_hom map fun e a => ?_).symm
  rw [hadd]
  cases part? a <;> rfl

/-- Additions of different kinds do not meet. -/
theorem addAll_eq (e : Extraction) (as : List Addition) : e.addAll as = {
    styles := e.styles.upsertAll (fun _ r => r) (as.filterMap Addition.record?)
    atRules := e.atRules.upsertAll (fun groups group => groups.getD [] ++ [group])
      (as.filterMap Addition.conditions?)
    masks := e.masks.upsertAll (fun _ m => m) (as.filterMap Addition.mask?)
    topics := e.topics.upsertAll (fun topics topic => addUnlessThere (topics.getD []) topic)
      (as.filterMap Addition.topic?) } := by
  have hstyles := addAll_map styles (fun _ r => r) Addition.record?
    (fun e a => by cases a <;> rfl) e as
  have hatRules := addAll_map atRules (fun groups group => groups.getD [] ++ [group])
    Addition.conditions? (fun e a => by cases a <;> rfl) e as
  have hmasks := addAll_map masks (fun _ m => m) Addition.mask?
    (fun e a => by cases a <;> rfl) e as
  have htopics := addAll_map topics (fun topics topic => addUnlessThere (topics.getD []) topic)
    Addition.topic? (fun e a => by cases a <;> rfl) e as
  rw [← hstyles, ← hatRules, ← hmasks, ← htopics]

/-! ### What is made of nothing -/

variable {α β γ : Type}

theorem foldl_some (bs : List β) (b : Option β) :
    bs.foldl (fun _ b => some b) b = bs.getLast?.or b := by
  induction bs using List.reverseRecOn with
  | nil => simp
  | append_singleton bs b' _ => simp

/-- What is gathered starts with the first item. -/
theorem foldl_getD (g : γ → β → γ) (start : γ) (bs : List β) :
    bs.foldl (fun c b => some (g (c.getD start) b)) none =
      if bs = [] then none else some (bs.foldl g start) := by
  cases bs with
  | nil => rfl
  | cons b bs =>
    rw [if_neg (List.cons_ne_nil b bs), List.foldl_cons, List.foldl_cons, Option.getD_none]
    exact List.foldl_hom some fun _ _ => rfl

theorem foldl_concat (bs : List β) : bs.foldl (fun before b => before ++ [b]) [] = bs := by
  induction bs using List.reverseRecOn with
  | nil => rfl
  | append_singleton bs b ih => rw [List.foldl_append, ih, List.foldl_cons, List.foldl_nil]

theorem foldl_addUnlessThere (topics : List String) :
    topics.foldl addUnlessThere [] = topics.eraseDups := by
  induction topics using List.reverseRecOn with
  | nil => rfl
  | append_singleton topics topic ih =>
    rw [List.foldl_append, ih, List.foldl_cons, List.foldl_nil, eraseDups_concat, addUnlessThere]
    simp only [List.mem_eraseDups]

theorem get?_upsertAll_last (calls : List (String × α)) (selector : String) :
    (upsertAll (fun _ a => a) ∅ calls).get? selector = (given selector calls).getLast? := by
  rw [get?_upsertAll]
  exact (foldl_some _ _).trans (Option.or_none)

/-- Without a call for it, a selector is not in the map. -/
theorem get?_upsertAll_gathered (g : γ → β → γ) (start : γ) (calls : List (String × β))
    (selector : String) :
    (upsertAll (fun c b => g (c.getD start) b) ∅ calls).get? selector =
      if given selector calls = [] then none else some ((given selector calls).foldl g start) := by
  rw [get?_upsertAll]
  exact foldl_getD g start _

/-- **What a run of additions makes of nothing.** In each map the selectors stand in the order of
their first additions. The declarations and the mask of a selector are the last ones given, its
groups of conditions are all that were given, and its topics all that were given but for
repetitions. Runs that add the same to each map, in the same order, make the same extraction. -/
theorem addAll_empty (as : List Addition) :
    ((empty.addAll as).styles.keys = ((as.filterMap Addition.record?).map Prod.fst).eraseDups ∧
      ∀ selector, (empty.addAll as).styles.get? selector =
        (given selector (as.filterMap Addition.record?)).getLast?) ∧
    ((empty.addAll as).atRules.keys =
        ((as.filterMap Addition.conditions?).map Prod.fst).eraseDups ∧
      ∀ selector, (empty.addAll as).atRules.get? selector =
        if given selector (as.filterMap Addition.conditions?) = [] then none
        else some (given selector (as.filterMap Addition.conditions?))) ∧
    ((empty.addAll as).masks.keys = ((as.filterMap Addition.mask?).map Prod.fst).eraseDups ∧
      ∀ selector, (empty.addAll as).masks.get? selector =
        (given selector (as.filterMap Addition.mask?)).getLast?) ∧
    ((empty.addAll as).topics.keys = ((as.filterMap Addition.topic?).map Prod.fst).eraseDups ∧
      ∀ selector, (empty.addAll as).topics.get? selector =
        if given selector (as.filterMap Addition.topic?) = [] then none
        else some (given selector (as.filterMap Addition.topic?)).eraseDups) ∧
    ∀ bs : List Addition, bs.filterMap Addition.record? = as.filterMap Addition.record? →
      bs.filterMap Addition.conditions? = as.filterMap Addition.conditions? →
      bs.filterMap Addition.mask? = as.filterMap Addition.mask? →
      bs.filterMap Addition.topic? = as.filterMap Addition.topic? →
      empty.addAll bs = empty.addAll as := by
  refine ⟨?_, ?_, ?_, ?_, fun bs hrecords hconditions hmasks htopics => ?_⟩
  · rw [addAll_eq]
    exact ⟨keys_upsertAll _ _, get?_upsertAll_last _⟩
  · rw [addAll_eq]
    refine ⟨keys_upsertAll _ _, fun selector => ?_⟩
    have hget := get?_upsertAll_gathered (fun groups group => groups ++ [group]) []
      (as.filterMap Addition.conditions?) selector
    rwa [foldl_concat] at hget
  · rw [addAll_eq]
    exact ⟨keys_upsertAll _ _, get?_upsertAll_last _⟩
  · rw [addAll_eq]
    refine ⟨keys_upsertAll _ _, fun selector => ?_⟩
    have hget := get?_upsertAll_gathered addUnlessThere [] (as.filterMap Addition.topic?) selector
    rwa [foldl_addUnlessThere] at hget
  · rw [addAll_eq, addAll_eq, hrecords, hconditions, hmasks, htopics]

/-- Additions to three maps in turn. -/
def mixedAdditions : List Addition :=
  [.topic "a" "width", .mask "b" 1, .conditions "a" [⟨"pseudo-class", "hover"⟩], .mask "a" 2,
    .topic "a" "colorScheme", .conditions "a" [], .topic "a" "width", .mask "b" 3]

/-- The same additions, one map after the other. -/
def sortedAdditions : List Addition :=
  [.conditions "a" [⟨"pseudo-class", "hover"⟩], .conditions "a" [], .mask "b" 1, .mask "a" 2,
    .mask "b" 3, .topic "a" "width", .topic "a" "colorScheme", .topic "a" "width"]

theorem addAll_empty_mixedAdditions :
    (empty.addAll mixedAdditions).masks.keys = ["b", "a"] ∧
      (empty.addAll mixedAdditions).masks.get? "b" = some 3 ∧
      (empty.addAll mixedAdditions).atRules.get? "a" = some [[⟨"pseudo-class", "hover"⟩], []] ∧
      (empty.addAll mixedAdditions).topics.get? "a" = some ["width", "colorScheme"] ∧
      empty.addAll sortedAdditions = empty.addAll mixedAdditions := by
  obtain ⟨-, ⟨-, hconditions⟩, ⟨hkeys, hmasks⟩, ⟨-, htopics⟩, hsame⟩ :=
    addAll_empty mixedAdditions
  refine ⟨?_, ?_, ?_, ?_, hsame sortedAdditions rfl rfl rfl rfl⟩
  · rw [hkeys]
    rfl
  · rw [hmasks]
    rfl
  · rw [hconditions]
    rfl
  · rw [htopics]
    rfl

end Extraction

end StyleModule
