import ConventionLint.Proofs.Binding.Graph
import Mathlib.Data.List.Perm.Subperm
import Mathlib.Logic.Relation

/-!
# Aliases that come to an end

Aliases are replaced for as long as there are any: no bound is set in advance. The recursion ends
for exactly the types that use no alias from which one can get to an alias that reaches itself
through the arguments of its target. Where it ends, replacing aliases as many levels deep as there
are aliases does the same, since no alias occurs twice on the way down.
-/
namespace ConventionLint

namespace WrittenType

@[elab_as_elim]
theorem induction {P : WrittenType → Prop} (step : ∀ t, (∀ a ∈ t.arguments, P a) → P t)
    (t : WrittenType) : P t :=
  @WrittenType.rec P (fun ts => ∀ a ∈ ts, P a)
    (fun qualifier name arguments ih => step ⟨qualifier, name, arguments⟩ ih)
    (fun _ => nofun) (fun _ _ first rest => List.forall_mem_cons.2 ⟨first, rest⟩) t

mutual

/-- The names in a type that have neither a qualifier nor arguments. -/
def words : WrittenType → List String
  | ⟨some _, _, arguments⟩ => wordsOfAll arguments
  | ⟨none, name, []⟩ => [name]
  | ⟨none, _, first :: rest⟩ => words first ++ wordsOfAll rest

def wordsOfAll : List WrittenType → List String
  | [] => []
  | t :: ts => words t ++ wordsOfAll ts

end

theorem mem_wordsOfAll {a : String} {ts : List WrittenType} :
    a ∈ wordsOfAll ts ↔ ∃ t ∈ ts, a ∈ t.words := by
  induction ts with
  | nil => simp [wordsOfAll]
  | cons t ts ih => simp [wordsOfAll, ih]

section

variable (aliases : List UsingAlias) (hidden : List String)

/-- Whether an alias occurs in a type as a whole name and no type parameter hides it. -/
def Uses (t : WrittenType) (a : String) : Prop :=
  a ∈ t.words ∧ a ∉ hidden ∧ a ∈ aliases.map (·.name)

end

end WrittenType

open WrittenType

namespace UsingAlias

section

variable (aliases : List UsingAlias) (hidden : List String)

/-- Whether the second alias is used, at any depth, in an argument of the target of the first. -/
def Refers (a b : String) : Prop :=
  ∃ target, aliasTarget aliases a = some target ∧
    ∃ argument ∈ target.arguments, argument.Uses aliases hidden b

def Acyclic : Prop :=
  ∀ a, ¬ Relation.TransGen (Refers aliases hidden) a a

/-- Whether an alias leads to one that reaches itself. -/
def Loops (a : String) : Prop :=
  ∃ b, Relation.ReflTransGen (Refers aliases hidden) a b ∧
    Relation.TransGen (Refers aliases hidden) b b

end

variable {aliases : List UsingAlias} {hidden : List String} {a b : String}

theorem Loops.of_refers (refers : Refers aliases hidden a b) (loops : Loops aliases hidden b) :
    Loops aliases hidden a := by
  obtain ⟨c, path, around⟩ := loops
  exact ⟨c, path.head refers, around⟩

theorem Loops.exists_refers (loops : Loops aliases hidden a) :
    ∃ b, Refers aliases hidden a b ∧ Loops aliases hidden b := by
  obtain ⟨c, path, around⟩ := loops
  obtain ⟨b, refers, rest⟩ := Relation.TransGen.head'_iff.1 (.trans_right path around)
  exact ⟨b, refers, c, rest, around⟩

/-- Hiding some aliases adds no cycles. -/
theorem Acyclic.hide (acyclic : Acyclic aliases []) (hidden : List String) :
    Acyclic aliases hidden := by
  have fewer : Refers aliases hidden ≤ Refers aliases [] := by
    rintro a b ⟨target, found, argument, member, named, -, known⟩
    exact ⟨target, found, argument, member, named, List.not_mem_nil, known⟩
  exact fun a around => acyclic a (Relation.TransGen.mono fewer a a around)

/-- Aliases do not loop when each ranks above the names in the arguments of its target. -/
theorem acyclic_of_rank (rank : String → Nat) (below : ∀ entry ∈ aliases,
    ∀ b ∈ wordsOfAll entry.target.arguments, rank b < rank entry.name) :
    Acyclic aliases hidden := by
  have step : ∀ a b, Refers aliases hidden a b → rank b < rank a := by
    rintro a b ⟨target, found, argument, member, named, -⟩
    obtain ⟨entry, first, rfl⟩ := Option.map_eq_some_iff.1 found
    have same : entry.name = a := by simpa using List.find?_some first
    exact same ▸ below entry (List.mem_of_find?_eq_some first) b
      (mem_wordsOfAll.2 ⟨argument, member, named⟩)
  have falls : ∀ a b, Relation.TransGen (Refers aliases hidden) a b → rank b < rank a := by
    intro a b path
    induction path with
    | single refers => exact step _ _ refers
    | tail _ refers ih => exact Nat.lt_trans (step _ _ refers) ih
  exact fun a around => Nat.lt_irrefl _ (falls a a around)

end UsingAlias

open UsingAlias

namespace WrittenType

variable {aliases : List UsingAlias} {hidden : List String} {inTarget : WrittenType → WrittenType}
  {a : String}

theorem expandAllWith_eq_map (ts : List WrittenType) : expandAllWith aliases hidden inTarget ts
    = ts.map (expandWith aliases hidden inTarget) := by
  induction ts with
  | nil => rfl
  | cons t ts ih => rw [expandAllWith, ih, List.map_cons]

theorem aliasTarget_eq_none_iff :
    aliasTarget aliases a = none ↔ a ∉ aliases.map (·.name) := by
  simp [aliasTarget]

/-- A type that is an alias as a whole becomes the target, and its arguments are in the target. -/
structure IsAlias (aliases : List UsingAlias) (hidden : List String) (t target : WrittenType) :
    Prop where
  found : aliasTarget aliases t.name = some target
  uses : ∀ a, t.Uses aliases hidden a ↔ a = t.name
  once : t.expandOnce aliases hidden = target
  expanded : ∀ inTarget, t.expandWith aliases hidden inTarget
    = { target with arguments := target.arguments.map inTarget }

/-- Any other type keeps its arguments, and all aliases it uses are used there. -/
structure IsNoAlias (aliases : List UsingAlias) (hidden : List String) (t : WrittenType) :
    Prop where
  uses : ∀ a, t.Uses aliases hidden a ↔ ∃ argument ∈ t.arguments, argument.Uses aliases hidden a
  once : (t.expandOnce aliases hidden).arguments = t.arguments
  expanded : ∀ inTarget, t.expandWith aliases hidden inTarget
    = { t.expandOnce aliases hidden with
        arguments := t.arguments.map (expandWith aliases hidden inTarget) }

theorem uses_iff_of_words {t : WrittenType} (words : t.words = wordsOfAll t.arguments) :
    t.Uses aliases hidden a ↔ ∃ argument ∈ t.arguments, argument.Uses aliases hidden a := by
  simp only [Uses, words, mem_wordsOfAll]
  exact ⟨fun ⟨⟨t, member, named⟩, known⟩ => ⟨t, member, named, known⟩,
    fun ⟨t, member, named, known⟩ => ⟨⟨t, member, named⟩, known⟩⟩

theorem uses_simple_iff {name : String} : Uses aliases hidden ⟨none, name, []⟩ a ↔
    a = name ∧ hidden.contains name = false ∧ aliasTarget aliases name ≠ none := by
  have word : a ∈ words ⟨none, name, []⟩ ↔ a = name := List.mem_singleton
  rw [Uses, word]
  refine and_congr_right fun same => ?_
  rw [same, ne_eq, aliasTarget_eq_none_iff, not_not, List.contains_eq_mem, decide_eq_false_iff_not]

theorem isNoAlias_simple {name : String} (unused : ∀ a, ¬ Uses aliases hidden ⟨none, name, []⟩ a)
    (once : expandOnce aliases hidden ⟨none, name, []⟩ = ⟨none, name, []⟩)
    (expanded : ∀ inTarget,
      expandWith aliases hidden inTarget ⟨none, name, []⟩ = ⟨none, name, []⟩) :
    IsNoAlias aliases hidden ⟨none, name, []⟩ := by
  refine ⟨fun a => ?_, ?_, fun inTarget => ?_⟩
  · simpa using unused a
  · rw [once]
  · rw [once, expanded]
    rfl

theorem isAlias_or_isNoAlias (aliases : List UsingAlias) (hidden : List String) (t : WrittenType) :
    (∃ target, IsAlias aliases hidden t target) ∨ IsNoAlias aliases hidden t := by
  match t with
  | ⟨some qualifier, name, arguments⟩ =>
    refine .inr ⟨fun a => uses_iff_of_words rfl, rfl, fun inTarget => ?_⟩
    rw [expandWith, expandAllWith_eq_map]
    rfl
  | ⟨none, name, first :: rest⟩ =>
    refine .inr ⟨fun a => uses_iff_of_words rfl, rfl, fun inTarget => ?_⟩
    rw [expandWith, expandAllWith_eq_map]
    rfl
  | ⟨none, name, []⟩ =>
    cases hides : hidden.contains name with
    | true =>
      refine .inr (isNoAlias_simple (fun a used => ?_) ?_ fun inTarget => ?_)
      · rw [(uses_simple_iff.1 used).2.1] at hides
        cases hides
      · rw [expandOnce, if_pos hides]
      · rw [expandWith, if_pos hides]
    | false =>
      cases found : aliasTarget aliases name with
      | none =>
        refine .inr (isNoAlias_simple (fun a used => ?_) ?_ fun inTarget => ?_)
        · exact (uses_simple_iff.1 used).2.2 found
        · rw [expandOnce, found]
          exact ite_self _
        · rw [expandWith, found]
          exact ite_self _
      | some target =>
        refine .inl ⟨target, found, fun a => ?_, ?_, fun inTarget => ?_⟩
        · rw [uses_simple_iff, hides, found]
          simp
        · rw [expandOnce, hides, found]
          rfl
        · rw [expandWith, hides, found]
          rfl

end WrittenType

namespace Binding

def Scope.Acyclic (scope : Scope) : Prop :=
  UsingAlias.Acyclic scope.aliases scope.hidden

/-- Whether a type uses no alias that leads into a loop. -/
def Scope.LoopFree (scope : Scope) (t : WrittenType) : Prop :=
  ∀ a, t.Uses scope.aliases scope.hidden a → ¬ Loops scope.aliases scope.hidden a

theorem Scope.Acyclic.loopFree {scope : Scope} (acyclic : scope.Acyclic) (t : WrittenType) :
    scope.LoopFree t := by
  rintro a - ⟨b, -, around⟩
  exact acyclic b around

/-- What a type is bound to, if the recursion comes to an end. -/
noncomputable def Reference.resolve? (n : Names) (scope : Scope) (t : WrittenType) :
    Option Reference :=
  open Classical in if Acc scope.BindsFirst t then some (ofAliased n scope t) else none

section

variable {n : Names} {scope : Scope} {t : WrittenType} {r : Reference}

theorem Reference.resolve?_eq_some_iff :
    resolve? n scope t = some r ↔ Acc scope.BindsFirst t ∧ ofAliased n scope t = r := by
  rw [resolve?]
  split <;> simp_all

/-- One step of the recursion. -/
theorem Reference.ofAliased_of_acc (ends : Acc scope.BindsFirst t) :
    ofAliased n scope t = ⟨(t.expandOnce scope.aliases scope.hidden).name,
      n.bind scope (t.expandOnce scope.aliases scope.hidden),
      (t.expandOnce scope.aliases scope.hidden).arguments.map (ofAliased n scope)⟩ := by
  rw [ofAliased, WellFounded.partialExtrinsicFix_eq_apply_of_acc ends]
  simp only [List.map_attach_eq_pmap, List.pmap_eq_map]

theorem Reference.ofAllWritten_eq_map (n : Names) (scope : Scope) (ts : List WrittenType) :
    ofAllWritten n scope ts = ts.map (ofWritten n scope) := by
  induction ts with
  | nil => rfl
  | cons t ts ih => rw [ofAllWritten, ih, List.map_cons]

/-- Arguments count, and that is all that matters of them to what a type itself denotes. -/
theorem Names.bind_arguments {arguments : List WrittenType}
    (count : arguments.length = t.arguments.length) :
    n.bind scope { t with arguments } = n.bind scope t := by
  have empty : arguments.isEmpty = t.arguments.isEmpty := by
    rw [Bool.eq_iff_iff, List.isEmpty_iff_length_eq_zero, List.isEmpty_iff_length_eq_zero, count]
  simp only [Names.bind, count, empty]

theorem Reference.resolve?_of_arguments {f : WrittenType → WrittenType}
    (resolved : ∀ argument ∈ (t.expandOnce scope.aliases scope.hidden).arguments,
      resolve? n scope argument = some (ofWritten n scope (f argument))) :
    resolve? n scope t = some (ofWritten n scope { t.expandOnce scope.aliases scope.hidden with
      arguments := (t.expandOnce scope.aliases scope.hidden).arguments.map f }) := by
  have ends : Acc scope.BindsFirst t :=
    .intro t fun argument member => (resolve?_eq_some_iff.1 (resolved argument member)).1
  have bound : (t.expandOnce scope.aliases scope.hidden).arguments.map (ofAliased n scope)
      = (t.expandOnce scope.aliases scope.hidden).arguments.map (ofWritten n scope ∘ f) :=
    List.map_congr_left fun argument member =>
      (resolve?_eq_some_iff.1 (resolved argument member)).2
  rw [resolve?_eq_some_iff, ofAliased_of_acc ends, bound, ofWritten, ofAllWritten_eq_map,
    List.map_map, Names.bind_arguments (List.length_map ..)]
  exact ⟨ends, rfl⟩

/-- Where the arguments of the targets are bound, the type is, with those put in. -/
theorem Reference.resolve?_of_targets {inTarget : WrittenType → WrittenType}
    (bound : ∀ a target, t.Uses scope.aliases scope.hidden a →
      aliasTarget scope.aliases a = some target → ∀ argument ∈ target.arguments,
        resolve? n scope argument = some (ofWritten n scope (inTarget argument))) :
    resolve? n scope t
      = some (ofWritten n scope (t.expandWith scope.aliases scope.hidden inTarget)) := by
  induction t using WrittenType.induction with
  | step t ih =>
    rcases isAlias_or_isNoAlias scope.aliases scope.hidden t with ⟨target, whole⟩ | part
    · rw [whole.expanded, ← whole.once]
      refine resolve?_of_arguments fun argument member => ?_
      rw [whole.once] at member
      exact bound t.name target ((whole.uses t.name).2 rfl) whole.found argument member
    · rw [part.expanded, ← part.once]
      refine resolve?_of_arguments fun argument member => ?_
      rw [part.once] at member
      exact ih argument member fun a target used =>
        bound a target ((part.uses a).2 ⟨argument, member, used⟩)

/-- The aliases on the way down are different ones, so that as many levels are enough as there are
aliases besides. -/
theorem Reference.resolve?_eq_some_of_path (levels : Nat) (path : List String)
    (distinct : path.Nodup) (known : ∀ a ∈ path, a ∈ scope.aliases.map (·.name))
    (enough : scope.aliases.length < path.length + levels)
    (reached : ∀ a ∈ path, ∀ b, t.Uses scope.aliases scope.hidden b →
      Relation.TransGen (Refers scope.aliases scope.hidden) a b)
    (free : scope.LoopFree t) : resolve? n scope t
      = some (ofWritten n scope (t.expandLevels scope.aliases scope.hidden levels)) := by
  induction levels generalizing t path with
  | zero =>
    have fits := (distinct.subperm known).length_le
    rw [List.length_map] at fits
    omega
  | succ levels ih =>
    refine resolve?_of_targets fun a target used found argument member => ?_
    have refers (b : String) (inner : argument.Uses scope.aliases scope.hidden b) :
        Refers scope.aliases scope.hidden a b := ⟨target, found, argument, member, inner⟩
    have new : a ∉ path := fun old => free a used ⟨a, .refl, reached a old a used⟩
    refine ih (a :: path) (List.nodup_cons.2 ⟨new, distinct⟩) ?_ ?_ ?_ ?_
    · exact List.forall_mem_cons.2 ⟨used.2.2, known⟩
    · rw [List.length_cons]
      omega
    · refine List.forall_mem_cons.2 ⟨fun b inner => .single (refers b inner), ?_⟩
      exact fun c earlier b inner => (reached c earlier a used).tail (refers b inner)
    · exact fun b inner loops => free a used (loops.of_refers (refers b inner))

theorem Reference.resolve?_eq_some (free : scope.LoopFree t) :
    resolve? n scope t = some (resolve n scope t) :=
  resolve?_eq_some_of_path _ [] List.nodup_nil nofun (by simp) nofun free

/-- The recursion does not come to an end when it meets an alias that leads into a loop. -/
theorem Scope.loopFree_of_acc (ends : Acc scope.BindsFirst t) : scope.LoopFree t := by
  induction ends with
  | intro t _ ih =>
    intro a used loops
    rcases isAlias_or_isNoAlias scope.aliases scope.hidden t with ⟨target, whole⟩ | part
    · obtain rfl := (whole.uses a).1 used
      obtain ⟨b, ⟨target', found, argument, member, inner⟩, loops⟩ := loops.exists_refers
      obtain rfl := Option.some.inj (whole.found.symm.trans found)
      have first : scope.BindsFirst argument t := by rwa [Scope.BindsFirst, whole.once]
      exact ih argument first b inner loops
    · obtain ⟨argument, member, inner⟩ := (part.uses a).1 used
      have first : scope.BindsFirst argument t := by rwa [Scope.BindsFirst, part.once]
      exact ih argument first a inner loops

theorem Scope.acc_iff_loopFree : Acc scope.BindsFirst t ↔ scope.LoopFree t := by
  refine ⟨loopFree_of_acc, fun free => ?_⟩
  -- the names that are declared decide on what is bound, not on whether it is
  have resolved := Reference.resolve?_eq_some (n := ⟨[], none, ""⟩) free
  exact (Reference.resolve?_eq_some_iff.1 resolved).1

theorem Reference.ofAliased_eq_resolve (free : scope.LoopFree t) :
    ofAliased n scope t = resolve n scope t :=
  (resolve?_eq_some_iff.1 (resolve?_eq_some free)).2

theorem Reference.isSome_resolve?_iff : (resolve? n scope t).isSome ↔ scope.LoopFree t := by
  rw [resolve?, ← Scope.acc_iff_loopFree]
  split <;> simp_all

end

def compilationOf (files : List SourceFile) (edges : List Edges) : Compilation :=
  let keys := symbolKeys (groupsOf files) edges
  .ofTypes
    (List.zipWith (declaredSymbol keys) (groupsOf files) edges
      ++ keys.filterMap (referredSymbol keys))
    (files.map (·.path))

end Binding

open Binding

/-- No alias of a file reaches itself, even if no type parameter hides any. -/
def SourceFile.Acyclic (file : SourceFile) : Prop :=
  UsingAlias.Acyclic file.aliases []

namespace Compilation

variable {root : String} {files : List SourceFile}

theorem buildWith_eq (bindEntry : Names → Scope → WrittenType → Reference) :
    buildWith bindEntry root files = compilationOf files ((groupsOf files).map
      (edgesWith bindEntry (namesOf root files) (groupsOf files) (scopesOf files))) := rfl

/-- Whether each entry of the base lists that count is bound in the end. -/
def BuildEnds (files : List SourceFile) : Prop :=
  ∀ g ∈ groupsOf files, ∀ t ∈ g.basePart.declaration.baseList,
    Acc (scopeOf (scopesOf files) g).BindsFirst t

/-- What is built from files, if that comes to an end. -/
noncomputable def build? (root : String) (files : List SourceFile) : Option Compilation :=
  open Classical in if BuildEnds files then some (ofFiles root files) else none

theorem acyclic_scopeOf (acyclic : ∀ file ∈ files, file.Acyclic) :
    ∀ g ∈ groupsOf files, (scopeOf (scopesOf files) g).Acyclic := by
  intro g member
  have present := (of_mem_sites (basePart_of_mem_groups member).1).2
  exact UsingAlias.Acyclic.hide (acyclic _ present) _

theorem buildEnds_of_acyclic
    (acyclic : ∀ g ∈ groupsOf files, (scopeOf (scopesOf files) g).Acyclic) : BuildEnds files :=
  fun g member t _ => Scope.acc_iff_loopFree.2 ((acyclic g member).loopFree t)

/-- What is built is what is built with the bound. -/
theorem ofFiles_eq_build (ends : BuildEnds files) : ofFiles root files = build root files := by
  rw [ofFiles, build, buildWith_eq, buildWith_eq]
  refine congrArg _ (List.map_congr_left fun g member => ?_)
  rw [edgesWith, edgesWith]
  refine congrArg _ (List.map_congr_left fun t listed => ?_)
  exact Reference.ofAliased_eq_resolve (Scope.acc_iff_loopFree.1 (ends g member t listed))

theorem build?_eq_some (ends : BuildEnds files) :
    build? root files = some (build root files) := by
  rw [build?, if_pos ends, ofFiles_eq_build ends]

theorem build?_of_acyclic (acyclic : ∀ file ∈ files, file.Acyclic) :
    build? root files = some (build root files) :=
  build?_eq_some (buildEnds_of_acyclic (acyclic_scopeOf acyclic))

end Compilation

/-- Without a bound, a type is bound exactly when it uses no alias that leads into a loop. So it
always is where aliases refer to one another without cycles, to what the bounded expansion gives,
and files with only such scopes are built. A file whose aliases have no cycle has only such scopes.
-/
theorem Compilation.expansion_ends :
    (∀ n scope t, (Reference.resolve? n scope t).isSome ↔ scope.LoopFree t) ∧
    (∀ scope : Scope, scope.Acyclic → ∀ n t,
      Reference.resolve? n scope t = some (Reference.resolve n scope t)) ∧
    (∀ root files, (∀ g ∈ groupsOf files, (scopeOf (scopesOf files) g).Acyclic) →
      build? root files = some (build root files)) ∧
    ∀ files : List SourceFile, (∀ file ∈ files, file.Acyclic) →
      ∀ g ∈ groupsOf files, (scopeOf (scopesOf files) g).Acyclic := by
  refine ⟨fun n scope t => Reference.isSome_resolve?_iff, fun scope acyclic n t => ?_,
    fun root files acyclic => build?_eq_some (buildEnds_of_acyclic acyclic),
    fun files => acyclic_scopeOf⟩
  exact Reference.resolve?_eq_some (acyclic.loopFree t)

/-- A class whose base is an alias. The argument of its target is another alias, and a third occurs
in the arguments of that one's target at two depths. -/
def orderBook : SourceFile where
  path := ⟨"a.cs"⟩
  imports := []
  aliases := [⟨"Orders", ⟨none, "List", [⟨none, "Entry", []⟩]⟩⟩,
    ⟨"Entry", ⟨none, "Pair", [⟨none, "Key", []⟩, ⟨none, "List", [⟨none, "Key", []⟩]⟩]⟩⟩,
    ⟨"Key", ⟨some "System", "Guid", []⟩⟩]
  types := [⟨"OrderBook", .plainClass, none, [], [⟨none, "Orders", []⟩], [], [], ⟨4, 7⟩, false⟩]

theorem Compilation.expansion_ends_orderBook :
    Scope.Acyclic ⟨none, [], orderBook.aliases, []⟩ ∧
      Reference.resolve? ⟨[], none, "Object"⟩ ⟨none, [], orderBook.aliases, []⟩ ⟨none, "Orders", []⟩
        = some (Reference.resolve ⟨[], none, "Object"⟩ ⟨none, [], orderBook.aliases, []⟩
          ⟨none, "Orders", []⟩) ∧
      (∀ file ∈ [orderBook], file.Acyclic) ∧
      build? "System.Object" [orderBook] = some (build "System.Object" [orderBook]) := by
  obtain ⟨-, resolved, built, inScopes⟩ := expansion_ends
  have ranked : orderBook.Acyclic := UsingAlias.acyclic_of_rank
    (fun name => if name = "Orders" then 2 else if name = "Entry" then 1 else 0) (by decide)
  have acyclic : ∀ file ∈ [orderBook], file.Acyclic := by simpa using ranked
  exact ⟨ranked, resolved ⟨none, [], orderBook.aliases, []⟩ ranked _ _, acyclic,
    built _ _ (inScopes _ acyclic)⟩

end ConventionLint
