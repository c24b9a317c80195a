import ConventionLint.Proofs.Binding.AliasTermination
import ConventionLint.Proofs.Binding.WellFormed
import ConventionLint.Proofs.Config.Validity
import ConventionLint.Proofs.Source.Identities
import ConventionLint.Proofs.Taxonomy.NearestMarker

/-!
# Bases written as identities

The identity of a marker is split where the marker is made, where the root of a compilation is set
and where a base list is read. All three agree. A class whose base list starts with the identity of
a marker derives from that marker, unless the name looks like that of an interface, or identity is
strict and the identity gives no namespace.
-/
namespace ConventionLint

theorem Text.qualify_splitName (name : String) :
    qualify (splitName name).1 (splitName name).2 = name := by
  rw [splitName]
  split
  · next before after cut =>
    rw [← String.toList_inj, eq_of_cutLast cut]
    simp [qualify]
  · rfl

namespace MarkerSet

variable {ms : MarkerSet} {t : TypeSymbol} {kind : MarkerKind}

def NamesApart (ms : MarkerSet) : Prop :=
  ∀ kind kind', (ms.marker kind).name = (ms.marker kind').name → kind = kind'

theorem namesApart_of_nodup
    (distinct : (MarkerKind.all.map fun kind => (ms.marker kind).name).Nodup) :
    ms.NamesApart := fun kind kind' same =>
  List.inj_on_of_nodup_map distinct kind.mem_all kind'.mem_all same

/-- Whether an undeclared type is a marker when it is written as the identity of that marker. -/
def Recognizes (ms : MarkerSet) (kind : MarkerKind) : Prop :=
  (ms.marker kind).qualifier.isSome ∨ ms.strict = false

theorem name_of_isMarker (marked : ms.isMarker t kind = true) :
    t.name = (ms.marker kind).name := by
  rw [isMarker] at marked
  split at marked
  · cases marked
  · next same =>
    simp only [Bool.or_eq_true, decide_eq_true_eq, not_or, not_not] at same
    exact same.2

theorem qualifiedName_of_isMarker {qualified : String} (marked : ms.isMarker t kind = true)
    (known : t.qualifiedName = some qualified) : qualified = (ms.marker kind).identity := by
  rw [isMarker, known] at marked
  split at marked
  · cases marked
  · exact of_decide_eq_true marked

theorem kindOf_eq_some_iff (apart : ms.NamesApart) :
    ms.kindOf t = some kind ↔ ms.isMarker t kind = true := by
  constructor
  · exact List.find?_some
  · intro marked
    cases found : ms.kindOf t with
    | none => exact absurd marked (List.find?_eq_none.1 found kind kind.mem_all)
    | some other =>
      have named := name_of_isMarker (List.find?_some found)
      rw [apart other kind (named.symm.trans (name_of_isMarker marked))]

end MarkerSet

/-- An undeclared type with the two parts of an identity. -/
theorem MarkerIdentities.isMarker_iff (m : MarkerIdentities) {t : TypeSymbol} {kind : MarkerKind}
    (external : t.kind = .external) (qualifier : t.qualifier = (m.markerSet.marker kind).qualifier)
    (name : t.name = (m.markerSet.marker kind).name) :
    m.markerSet.isMarker t kind = true ↔ m.markerSet.Recognizes kind := by
  have whole : Text.qualify (m.markerSet.marker kind).qualifier (m.markerSet.marker kind).name
      = (m.markerSet.marker kind).identity := Text.qualify_splitName _
  rw [MarkerSet.isMarker, MarkerSet.Recognizes, TypeSymbol.qualifiedName, external, qualifier, name]
  cases written : (m.markerSet.marker kind).qualifier with
  | none => simp
  | some ns =>
    rw [written, Text.qualify] at whole
    simpa using whole

namespace Resolver

variable {r : Resolver} {id : TypeId} {base : TypeSymbol} {kind : MarkerKind}

/-- The base of a type is a marker, which makes the type what it is. -/
def DerivesDirectly (r : Resolver) (id : TypeId) (kind : MarkerKind) : Prop :=
  ∃ base, r.directBase id = some base ∧ r.markers.kindOf base = some kind ∧
    r.classifyBy id true kind = some (r.classify id)

theorem derivesDirectly_of_base (declared : r.IsDeclared id) (link : r.directBase id = some base)
    (other : base.id ≠ id) (below : base.name ≠ (r.markers.marker .root).name)
    (marked : r.markers.kindOf base = some kind) (deciding : kind ≠ .root) :
    r.DerivesDirectly id kind := by
  have chain : r.IsChain id [base] :=
    ⟨.cons link (.nil _), by simpa using below, by simpa using other.symm⟩
  have nearest : r.NearestMarker id kind true :=
    ⟨[], base, chain, marked, deciding, by simp, rfl⟩
  obtain ⟨taxonomy, made⟩ : ∃ taxonomy, r.classifyBy id true kind = some taxonomy := by
    cases kind with
    | root => exact absurd rfl deciding
    | command | event | useCase | businessRule => exact ⟨_, rfl⟩
  have first := classifyFrom_ancestry_iff.2 ⟨kind, true, nearest, made⟩
  obtain ⟨t, found, shown⟩ := declared
  refine ⟨base, link, marked, ?_⟩
  rw [made, classify, found, Option.any_some, if_pos shown, first]

theorem classify_of_root (declared : r.IsDeclared id) (link : r.directBase id = some base)
    (top : base.name = (r.markers.marker .root).name) : r.classify id
      = if r.markers.isMarker base .root then .rootDerived else .unclassified := by
  have alone : r.ancestry id = [] := by
    cases found : r.ancestry id with
    | nil => rfl
    | cons first rest =>
      have chain : r.IsChain id [first] := isChain_iff_prefix_ancestry.2 ⟨rest, found.symm⟩
      obtain ⟨link', -⟩ := basePath_cons.1 chain.linked
      obtain rfl := Option.some.inj (link.symm.trans link')
      exact absurd top (chain.belowRoot base (by simp))
  obtain ⟨t, found, shown⟩ := declared
  rw [classify, found, Option.any_some, if_pos shown, alone, classifyFrom, link, Option.any_some]

end Resolver

namespace Binding

/-- A scope leaves a name as it is: no alias stands for it, and it is no keyword and no type
parameter. -/
structure Scope.Leaves (scope : Scope) (t : WrittenType) : Prop where
  qualifier : (t.expand scope.aliases (scope.parameters.map (·.2))).qualifier = t.qualifier
  name : (t.expand scope.aliases (scope.parameters.map (·.2))).name = t.name
  plain : ¬ scope.IsWord (t.expand scope.aliases (scope.parameters.map (·.2)))

theorem Reference.target_ofWritten (n : Names) (scope : Scope) (t : WrittenType) :
    (ofWritten n scope t).target = n.bind scope t := by
  obtain ⟨qualifier, name, arguments⟩ := t
  rw [ofWritten]

theorem Reference.arguments_resolve {n : Names} {scope : Scope} {t a : WrittenType}
    (single : t.arguments = [a]) :
    (resolve n scope t).arguments = [resolve n scope a] := by
  obtain ⟨_ | qualifier, name, arguments⟩ := t <;> obtain rfl := single <;>
    simp [resolve, WrittenType.expand, WrittenType.expandLevels, WrittenType.expandWith,
      WrittenType.expandAllWith, ofWritten, ofAllWritten]

/-- What a name is bound to that its scope leaves as it is and that no declared type has. -/
theorem Scope.Leaves.target_resolve {n : Names} {scope : Scope} {t : WrittenType}
    (left : scope.Leaves t) (unnamed : ∀ key ∈ n.declared, key.name ≠ t.name) :
    ∃ arity imports, (Reference.resolve n scope t).target
      = .external t.qualifier t.name arity imports := by
  rw [Reference.resolve, Reference.target_ofWritten, Names.bind_eq_elsewhere left.plain
    (left.name.symm ▸ unnamed), Scope.elsewhere, left.qualifier, left.name]
  exact ⟨_, _, rfl⟩

/-- Only a parameter is bound to a type parameter. -/
theorem Denotes.kind_ne_typeParameter {c : Compilation} {t : TypeSymbol} {key : SymbolKey}
    (denotes : Denotes c t key) (concrete : ∀ owner name, key ≠ .parameter owner name) :
    t.kind ≠ .typeParameter := by
  intro parameter
  cases key with
  | declared =>
    have shown := (List.mem_filter.1 denotes.1).2
    rw [parameter] at shown
    cases shown
  | external => cases parameter.symm.trans denotes.1
  | parameter owner name => exact concrete owner name rfl

section

variable {root : String} {files : List SourceFile} {g : Group} {t base : TypeSymbol}
  {markers : MarkerSet} {w : WrittenType}

theorem baseKey_of_nil (bare : g.basePart.declaration.baseList = []) :
    baseKey root files g = (namesOf root files).root := by
  rw [baseKey, leading, entriesOf, bare]
  rfl

theorem leading_of_head (listed : g.basePart.declaration.baseList.head? = some w) :
    leading root files g = if isInterface (groupsOf files)
        (Reference.resolve (namesOf root files) (scopeOf (scopesOf files) g) w) then none
      else some (Reference.resolve (namesOf root files) (scopeOf (scopesOf files) g) w) := by
  have head : (entriesOf root files g g.basePart).head?
      = some (Reference.resolve (namesOf root files) (scopeOf (scopesOf files) g) w) := by
    rw [entriesOf, List.head?_map, listed]
    rfl
  rw [leading, head, Option.filter]
  cases isInterface (groupsOf files)
    (Reference.resolve (namesOf root files) (scopeOf (scopesOf files) g) w) <;> rfl

section Declared

variable (member : g ∈ groupsOf files) (classlike : g.IsClasslike)
  (declared : t ∈ (Compilation.build root files).declaredTypes) (same : declaredKeyOf t = g.key)

include member declared same

theorem eq_declaredSymbol : t = declaredSymbol (keysOf root files) g (edgesIn root files g) :=
  declared_apart declared (mem_declaredTypes_build member)
    (same.trans (declaredKeyOf_declaredSymbol member).symm)

theorem get?_of_group : (Compilation.build root files).get? t.id = some t := by
  rw [eq_declaredSymbol member declared same]
  exact get?_id_of_symbolOf (declared_mem_keysOf member) (symbolOf_declared member)

/-- An undeclared base is another type. -/
theorem base_id_ne (link : Resolver.directBase ⟨.build root files, markers⟩ t.id = some base)
    (external : base.kind = .external) : base.id ≠ t.id := by
  intro equal
  have found := Resolver.get?_of_directBase link
  rw [equal, get?_of_group member declared same] at found
  obtain rfl := Option.some.inj found
  have shown := (List.mem_filter.1 declared).2
  rw [external] at shown
  cases shown

include classlike

theorem directBase_of_group (markers : MarkerSet) :
    ∃ base, Resolver.directBase ⟨.build root files, markers⟩ t.id = some base ∧
      Denotes (.build root files) base (baseKey root files g) := by
  obtain ⟨u, declared', same', base, link⟩ := exists_directBase root markers member classlike
  exact declared_apart declared' declared (same'.trans same.symm) ▸ ⟨base, link⟩

/-- The first argument of the base of a type is what the deciding entry has it bound to. -/
theorem firstArgument_of_group (markers : MarkerSet) {r a : Reference}
    (leads : leading root files g = some r) (first : r.arguments.head? = some a) :
    ∃ u, Resolver.firstArgument ⟨.build root files, markers⟩ t.id = some u ∧
      Denotes (.build root files) u a.target := by
  have based := (baseOf_declared member).trans (base_edgesIn root classlike)
  rw [leads, Option.getD_some] at based
  have known : a.target ∈ keysOf root files :=
    needed_mem_keysOf based (.inr ⟨a, List.mem_of_head? first, rfl⟩)
  obtain ⟨u, found⟩ := exists_symbolOf known
  refine ⟨u, ?_, denotes_symbolOf known found⟩
  rw [eq_declaredSymbol member declared same,
    firstArgument_build (declared_mem_keysOf member) (symbolOf_declared member), based,
    Option.bind_some, first, Option.bind_some, found]

end Declared

end

end Binding

open Binding Source

namespace Config

variable (c : Config) (files : List SourceFile)

def resolver : Resolver :=
  ⟨.build c.markers.root files, c.markers.markerSet⟩

/-- No declared type has the simple name of a marker. -/
def Unnamed : Prop :=
  ∀ t ∈ (Compilation.build c.markers.root files).declaredTypes, ∀ kind,
    t.name ≠ (c.markers.markerSet.marker kind).name

variable {c files} {g : Group} {t : TypeSymbol} {kind : MarkerKind} {w : WrittenType}

theorem Unnamed.key_ne (unnamed : c.Unnamed files) (kind : MarkerKind) :
    ∀ key ∈ (namesOf c.markers.root files).declared,
      key.name ≠ (c.markers.markerSet.marker kind).name := by
  intro key member
  obtain ⟨g, present, rfl⟩ := List.mem_map.1 member
  exact unnamed _ (mem_declaredTypes_build present) kind

/-- What the root is bound to. -/
theorem Unnamed.root_eq (unnamed : c.Unnamed files) : (namesOf c.markers.root files).root
    = .external (c.markers.markerSet.marker .root).qualifier
      (c.markers.markerSet.marker .root).name 0 [] :=
  Names.root_eq_external (unnamed.key_ne .root)

/-- The name of a marker at the front of a base list decides unless it looks like an interface's. -/
theorem Unnamed.leading_eq (unnamed : c.Unnamed files)
    (name : w.name = (c.markers.markerSet.marker kind).name)
    (listed : g.basePart.declaration.baseList.head? = some w)
    (left : (scopeOf (scopesOf files) g).Leaves w) :
    leading c.markers.root files g = if hasInterfaceName w.name then none else
      some (Reference.resolve (namesOf c.markers.root files) (scopeOf (scopesOf files) g) w) := by
  obtain ⟨arity, imports, target⟩ := left.target_resolve
    (n := namesOf c.markers.root files) (name ▸ unnamed.key_ne kind)
  have shape : isInterface (groupsOf files) (Reference.resolve (namesOf c.markers.root files)
      (scopeOf (scopesOf files) g) w) = hasInterfaceName w.name := by
    rw [isInterface, target]
  rw [leading_of_head listed, shape]

section Declared

variable (member : g ∈ groupsOf files) (classlike : g.IsClasslike)
  (declared : t ∈ (Compilation.build c.markers.root files).declaredTypes)
  (same : declaredKeyOf t = g.key)

include member declared same

theorem isDeclared_of_group : (c.resolver files).IsDeclared t.id :=
  ⟨t, get?_of_group member declared same, (List.mem_filter.1 declared).2⟩

include classlike

theorem classify_of_bare (unnamed : c.Unnamed files)
    (bare : g.basePart.declaration.baseList = []) :
    (c.resolver files).classify t.id = .rootDerived ↔ c.markers.markerSet.Recognizes .root := by
  obtain ⟨base, link, denotes⟩ :=
    directBase_of_group member classlike declared same c.markers.markerSet
  rw [baseKey_of_nil bare, unnamed.root_eq] at denotes
  obtain ⟨external, parts, -⟩ := denotes
  obtain ⟨qualifier, name, -⟩ := DeclaredKey.mk.inj parts
  rw [Resolver.classify_of_root (isDeclared_of_group member declared same) link name,
    ← c.markers.isMarker_iff external qualifier name]
  change (if c.markers.markerSet.isMarker base .root then Taxonomy.rootDerived
    else .unclassified) = _ ↔ _
  split <;> simp_all

theorem derivesDirectly_iff (apart : c.markers.markerSet.NamesApart) (unnamed : c.Unnamed files)
    (deciding : kind ≠ .root)
    (qualifier : w.qualifier = (c.markers.markerSet.marker kind).qualifier)
    (name : w.name = (c.markers.markerSet.marker kind).name)
    (listed : g.basePart.declaration.baseList.head? = some w)
    (left : (scopeOf (scopesOf files) g).Leaves w) :
    (c.resolver files).DerivesDirectly t.id kind ↔
      hasInterfaceName w.name = false ∧ c.markers.markerSet.Recognizes kind := by
  obtain ⟨base, link, denotes⟩ :=
    directBase_of_group member classlike declared same c.markers.markerSet
  obtain ⟨arity, imports, target⟩ := left.target_resolve
    (n := namesOf c.markers.root files) (name ▸ unnamed.key_ne kind)
  rw [baseKey, unnamed.leading_eq name listed left] at denotes
  cases shown : hasInterfaceName w.name with
  | true =>
    rw [shown, if_pos rfl, Option.map_none, Option.getD_none, unnamed.root_eq] at denotes
    obtain ⟨-, parts, -⟩ := denotes
    refine ⟨?_, fun direct => absurd direct.1 (by simp)⟩
    rintro ⟨other, link', marked, -⟩
    obtain rfl := Option.some.inj (link.symm.trans link')
    have named := MarkerSet.name_of_isMarker ((MarkerSet.kindOf_eq_some_iff apart).1 marked)
    exact absurd (apart kind .root (named.symm.trans (DeclaredKey.mk.inj parts).2.1)) deciding
  | false =>
    rw [shown, if_neg (by simp), Option.map_some, Option.getD_some, target] at denotes
    obtain ⟨external, parts, -⟩ := denotes
    obtain ⟨qualified, named, -⟩ := DeclaredKey.mk.inj parts
    have recognized := c.markers.isMarker_iff external (qualified.trans qualifier)
      (named.trans name)
    constructor
    · rintro ⟨other, link', marked, -⟩
      obtain rfl := Option.some.inj (link.symm.trans link')
      exact ⟨rfl, recognized.1 ((MarkerSet.kindOf_eq_some_iff apart).1 marked)⟩
    · rintro ⟨-, known⟩
      have below : base.name ≠ (c.markers.markerSet.marker .root).name := fun top =>
        deciding (apart kind .root ((named.trans name).symm.trans top))
      exact Resolver.derivesDirectly_of_base (isDeclared_of_group member declared same) link
        (base_id_ne member declared same link external) below
        ((MarkerSet.kindOf_eq_some_iff apart).2 (recognized.2 known)) deciding

/-- A use case is one of what the argument of its base is bound to, unless that is a parameter. -/
theorem classify_useCase {r a : Reference} (leads : leading c.markers.root files g = some r)
    (single : r.arguments = [a]) (concrete : ∀ owner name, a.target ≠ .parameter owner name)
    (direct : (c.resolver files).DerivesDirectly t.id .useCase) :
    ∃ u, Denotes (.build c.markers.root files) u a.target ∧
      (c.resolver files).classify t.id = .useCase (some u.id) true := by
  obtain ⟨u, argument, denotes⟩ := firstArgument_of_group member classlike declared same
    c.markers.markerSet leads (single ▸ List.head?_cons)
  obtain ⟨base, -, -, made⟩ := direct
  have command : (c.resolver files).commandArgument t.id = some u.id := by
    rw [Resolver.commandArgument, resolver, argument, Option.bind_some,
      if_neg (denotes.kind_ne_typeParameter concrete)]
  rw [Resolver.classifyBy, if_pos rfl, command] at made
  exact ⟨u, denotes, (Option.some.inj made).symm⟩

end Declared

/-- What the base list of a type makes of it. Nothing is recognised that identity is too strict for,
and no base is a marker whose name looks like that of an interface. -/
structure BaseListDecides (c : Config) (files : List SourceFile) (g : Group) (t : TypeSymbol) :
    Prop where
  bare : g.basePart.declaration.baseList = [] →
    ((c.resolver files).classify t.id = .rootDerived ↔ c.markers.markerSet.Recognizes .root)
  marked : ∀ kind ≠ .root, ∀ arguments w, IsReadAs (c.markers.identity kind) arguments w →
    g.basePart.declaration.baseList.head? = some w → (scopeOf (scopesOf files) g).Leaves w →
    ((c.resolver files).DerivesDirectly t.id kind ↔
      hasInterfaceName w.name = false ∧ c.markers.markerSet.Recognizes kind)
  useCase : ∀ a w, IsReadAs c.markers.useCase [a] w →
    g.basePart.declaration.baseList.head? = some w → (scopeOf (scopesOf files) g).Leaves w →
    (c.resolver files).DerivesDirectly t.id .useCase →
    ∀ key, (Reference.resolve (namesOf c.markers.root files) (scopeOf (scopesOf files) g) a).target
      = key → (∀ owner name, key ≠ .parameter owner name) →
      ∃ command, Denotes (.build c.markers.root files) command key ∧
        (c.resolver files).classify t.id = .useCase (some command.id) true

/-- A valid identity is read from its text as the two parts of its marker. Files in which no alias
reaches itself are built, and where no declared type has the name of a marker, base lists that are
empty or start with an identity decide what classes are. -/
theorem classify_identities (c : Config) (valid : c.check = .ok ())
    (apart : c.markers.markerSet.NamesApart) :
    (∀ kind, ∃ ts, tokens (c.markers.identity kind) = .ok ts ∧
      typeOf 0 ts = .ok (some ⟨(c.markers.markerSet.marker kind).qualifier,
        (c.markers.markerSet.marker kind).name, []⟩, [])) ∧
    ∀ files, (∀ file ∈ files, file.Acyclic) → c.Unnamed files →
      Compilation.build? c.markers.root files = some (c.resolver files).compilation ∧
      ∀ g ∈ groupsOf files, g.IsClasslike →
        ∀ t ∈ (c.resolver files).compilation.declaredTypes, declaredKeyOf t = g.key →
          c.BaseListDecides files g t := by
  refine ⟨fun kind => ?_, fun files acyclic unnamed =>
    ⟨Compilation.build?_of_acyclic acyclic, fun g member classlike t declared same => ?_⟩⟩
  · obtain ⟨ts, lexed, -, run⟩ := typeOf_identity (isIdentity_of_check valid kind)
    exact ⟨ts, lexed, run⟩
  have marked (kind : MarkerKind) (deciding : kind ≠ .root) {arguments : List WrittenType}
      {w : WrittenType} (read : IsReadAs (c.markers.identity kind) arguments w)
      (listed : g.basePart.declaration.baseList.head? = some w)
      (left : (scopeOf (scopesOf files) g).Leaves w) :
      (c.resolver files).DerivesDirectly t.id kind ↔
        hasInterfaceName w.name = false ∧ c.markers.markerSet.Recognizes kind := by
    obtain rfl := read.eq_splitName
    exact derivesDirectly_iff member classlike declared same apart unnamed deciding rfl rfl listed
      left
  constructor
  case bare => exact classify_of_bare member classlike declared same unnamed
  case marked => exact fun kind deciding arguments w => marked kind deciding
  case useCase =>
    rintro a w read listed left derives key rfl concrete
    have shown := ((marked .useCase (by simp) read listed left).1 derives).1
    have name : w.name = (c.markers.markerSet.marker .useCase).name := by
      rw [read.eq_splitName]
      rfl
    have leads := unnamed.leading_eq name listed left
    rw [shown, if_neg (by simp)] at leads
    obtain rfl := read.eq_splitName
    exact classify_useCase member classlike declared same leads
      (Reference.arguments_resolve rfl) concrete derives

def ofMarkers (m : MarkerIdentities) : Config :=
  { standard with markers := m, patterns := [] }

def placedDeclaration (bases : List WrittenType) : TypeDeclaration :=
  ⟨"OrderPlaced", .plainClass, none, [], bases, [], [], ⟨1, 7⟩, false⟩

def placedFile (aliases : List UsingAlias) (bases : List WrittenType) : SourceFile :=
  ⟨⟨"a.cs"⟩, [], aliases, [placedDeclaration bases]⟩

def placedGroup (aliases : List UsingAlias) (bases : List WrittenType) : Group :=
  ⟨⟨none, "OrderPlaced", 0⟩, ⟨⟨none, "OrderPlaced", 0⟩, none, placedDeclaration bases,
    placedFile aliases bases⟩, []⟩

theorem mem_groupsOf_placedFile (aliases : List UsingAlias) (bases : List WrittenType) :
    placedGroup aliases bases ∈ groupsOf [placedFile aliases bases] :=
  List.mem_singleton.2 rfl

/-- The type that is declared there. -/
theorem exists_placed (root : String) (aliases : List UsingAlias) (bases : List WrittenType) :
    ∃ t ∈ (Compilation.build root [placedFile aliases bases]).declaredTypes,
      declaredKeyOf t = (placedGroup aliases bases).key :=
  have member := mem_groupsOf_placedFile aliases bases
  ⟨_, mem_declaredTypes_build member, declaredKeyOf_declaredSymbol member⟩

theorem unnamed_placedFile {c : Config} (aliases : List UsingAlias) (bases : List WrittenType)
    (other : ∀ kind, "OrderPlaced" ≠ (c.markers.markerSet.marker kind).name) :
    c.Unnamed [placedFile aliases bases] := by
  intro t declared kind
  rw [declaredTypes_build] at declared
  obtain ⟨g, member, rfl⟩ := List.mem_map.1 declared
  obtain rfl : g = placedGroup aliases bases := List.mem_singleton.1 member
  exact other kind

/-- Aliases whose targets have no arguments do not reach anything. -/
theorem acyclic_placedFile {aliases : List UsingAlias}
    (plain : ∀ entry ∈ aliases, entry.target.arguments = []) (bases : List WrittenType) :
    ∀ file ∈ [placedFile aliases bases], file.Acyclic := by
  refine List.forall_mem_singleton.2 (UsingAlias.acyclic_of_rank (fun _ => 0) ?_)
  intro entry member b named
  rw [plain entry member] at named
  cases named

def messagingEvent : WrittenType := ⟨some "Slalom.Stacks.Messaging", "Event", []⟩

theorem namesApart_standard : (ofMarkers .standard).markers.markerSet.NamesApart :=
  MarkerSet.namesApart_of_nodup (by decide)

theorem unnamed_standard (aliases : List UsingAlias) (bases : List WrittenType) :
    (ofMarkers .standard).Unnamed [placedFile aliases bases] :=
  unnamed_placedFile aliases bases fun kind => by cases kind <;> decide

def otherAlias : UsingAlias := ⟨"Stock", .simple "Inventory"⟩

theorem classify_identities_event : (ofMarkers .standard).check = .ok () ∧
    (ofMarkers .standard).markers.markerSet.NamesApart ∧
    (∀ file ∈ [placedFile [otherAlias] [messagingEvent]], file.Acyclic) ∧
    (ofMarkers .standard).Unnamed [placedFile [otherAlias] [messagingEvent]] ∧
    ∃ compilation,
      Compilation.build? "System.Object" [placedFile [otherAlias] [messagingEvent]]
        = some compilation ∧
      ∃ t ∈ compilation.declaredTypes, declaredKeyOf t = ⟨none, "OrderPlaced", 0⟩ ∧
        Resolver.DerivesDirectly ⟨compilation, (ofMarkers .standard).markers.markerSet⟩ t.id
          .event := by
  have valid : (ofMarkers .standard).check = .ok () := rfl
  have acyclic : ∀ file ∈ [placedFile [otherAlias] [messagingEvent]], file.Acyclic :=
    acyclic_placedFile (by decide) [messagingEvent]
  have unnamed := unnamed_standard [otherAlias] [messagingEvent]
  obtain ⟨built, decided⟩ :=
    (classify_identities _ valid namesApart_standard).2 _ acyclic unnamed
  obtain ⟨t, declared, same⟩ := exists_placed "System.Object" [otherAlias] [messagingEvent]
  refine ⟨valid, namesApart_standard, acyclic, unnamed, _, built, t, declared, same, ?_⟩
  have decides := decided _ (mem_groupsOf_placedFile [otherAlias] [messagingEvent]) (.inl rfl) t
    declared same
  exact (decides.marked .event (by simp) [] messagingEvent
    (isReadAs_identity (isIdentity_of_check valid .event)) rfl ⟨rfl, rfl, by decide⟩).2
      ⟨by decide, .inl rfl⟩

/-- Every class without a base list derives from the root, and every class whose base list is the
identity of a marker derives directly from that marker. -/
def IdentitiesDecide (c : Config) (files : List SourceFile) : Prop :=
  ∀ g ∈ groupsOf files, g.IsClasslike →
    ∀ t ∈ (Compilation.build c.markers.root files).declaredTypes, declaredKeyOf t = g.key →
      (g.basePart.declaration.baseList = [] → (c.resolver files).classify t.id = .rootDerived) ∧
      ∀ kind ≠ .root, ∀ arguments w, IsReadAs (c.markers.identity kind) arguments w →
        g.basePart.declaration.baseList = [w] → (c.resolver files).DerivesDirectly t.id kind

/-- A valid configuration and files of which that is not so, though the names are apart and no alias
reaches itself. -/
def Misjudges (c : Config) (files : List SourceFile) : Prop :=
  c.check = .ok () ∧ c.markers.markerSet.NamesApart ∧ (∀ file ∈ files, file.Acyclic) ∧
    c.Unnamed files ∧ ¬ c.IdentitiesDecide files

def lookalikeMarkers : MarkerIdentities :=
  { MarkerIdentities.standard with command := "Lib.ICommand" }

def libCommand : WrittenType := ⟨some "Lib", "ICommand", []⟩

def bareRootMarkers : MarkerIdentities :=
  { MarkerIdentities.standard with root := "Object", strict := true }

def slalomAlias : UsingAlias := ⟨"Slalom", .simple "Other"⟩

theorem misjudges_lookalike :
    (ofMarkers lookalikeMarkers).Misjudges [placedFile [] [libCommand]] := by
  have valid : (ofMarkers lookalikeMarkers).check = .ok () := rfl
  have apart : (ofMarkers lookalikeMarkers).markers.markerSet.NamesApart :=
    MarkerSet.namesApart_of_nodup (by decide)
  have unnamed : (ofMarkers lookalikeMarkers).Unnamed [placedFile [] [libCommand]] :=
    unnamed_placedFile [] [libCommand] fun kind => by cases kind <;> decide
  refine ⟨valid, apart, acyclic_placedFile (by decide) [libCommand], unnamed, fun claim => ?_⟩
  have member := mem_groupsOf_placedFile [] [libCommand]
  obtain ⟨t, declared, same⟩ := exists_placed "System.Object" [] [libCommand]
  have direct := (claim _ member (.inl rfl) t declared same).2 .command (by simp) [] libCommand
    (isReadAs_identity (isIdentity_of_check valid .command)) rfl
  have shape := ((derivesDirectly_iff (c := ofMarkers lookalikeMarkers) member (.inl rfl) declared
    same apart unnamed (by simp) rfl rfl rfl ⟨rfl, rfl, by decide⟩).1 direct).1
  exact absurd shape (by decide)

theorem misjudges_bareRoot : (ofMarkers bareRootMarkers).Misjudges [placedFile [] []] := by
  have apart : (ofMarkers bareRootMarkers).markers.markerSet.NamesApart :=
    MarkerSet.namesApart_of_nodup (by decide)
  have unnamed : (ofMarkers bareRootMarkers).Unnamed [placedFile [] []] :=
    unnamed_placedFile [] [] fun kind => by cases kind <;> decide
  refine ⟨rfl, apart, acyclic_placedFile (by decide) [], unnamed, fun claim => ?_⟩
  have member := mem_groupsOf_placedFile [] []
  obtain ⟨t, declared, same⟩ := exists_placed "Object" [] []
  have rooted := (claim _ member (.inl rfl) t declared same).1 rfl
  rcases (classify_of_bare (c := ofMarkers bareRootMarkers) member (.inl rfl) declared same unnamed
    rfl).1 rooted with known | lenient
  · cases known
  · cases lenient

theorem misjudges_alias :
    (ofMarkers .standard).Misjudges [placedFile [slalomAlias] [messagingEvent]] := by
  refine ⟨rfl, namesApart_standard, acyclic_placedFile (by decide) [messagingEvent],
    unnamed_standard [slalomAlias] [messagingEvent], fun claim => ?_⟩
  have member := mem_groupsOf_placedFile [slalomAlias] [messagingEvent]
  obtain ⟨t, declared, same⟩ := exists_placed "System.Object" [slalomAlias] [messagingEvent]
  obtain ⟨base, link, marked, -⟩ := (claim _ member (.inl rfl) t declared same).2 .event (by simp) []
    messagingEvent (isReadAs_identity (isIdentity_of_check rfl .event)) rfl
  obtain ⟨base', link', denotes⟩ := directBase_of_group member (.inl rfl) declared same
    (ofMarkers .standard).markers.markerSet
  obtain rfl := Option.some.inj (link.symm.trans link')
  have key : baseKey "System.Object" [placedFile [slalomAlias] [messagingEvent]]
      (placedGroup [slalomAlias] [messagingEvent])
      = .external (some "Other.Stacks.Messaging") "Event" 0 [] := rfl
  rw [key] at denotes
  obtain ⟨external, parts, -⟩ := denotes
  obtain ⟨qualifier, name, -⟩ := DeclaredKey.mk.inj parts
  have known := (MarkerSet.kindOf_eq_some_iff namesApart_standard).1 marked
  have qualified : base.qualifiedName = some "Other.Stacks.Messaging.Event" := by
    rw [TypeSymbol.qualifiedName, external, qualifier, name]
    rfl
  exact absurd (MarkerSet.qualifiedName_of_isMarker known qualified) (by decide)

/-- A base that looks like an interface, a root without a namespace under strict identity, and an
alias of the first segment of a base. -/
theorem identities_not_decisive :
    (ofMarkers lookalikeMarkers).Misjudges [placedFile [] [libCommand]] ∧
      (ofMarkers bareRootMarkers).Misjudges [placedFile [] []] ∧
      (ofMarkers .standard).Misjudges [placedFile [slalomAlias] [messagingEvent]] :=
  ⟨misjudges_lookalike, misjudges_bareRoot, misjudges_alias⟩

end Config

end ConventionLint
