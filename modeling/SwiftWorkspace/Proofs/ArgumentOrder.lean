import Mathlib.Data.List.Nodup
import Mathlib.Data.List.TakeWhile
import SwiftWorkspace.Proofs.Calls
import SwiftWorkspace.Proofs.Milder
import SwiftWorkspace.Proofs.Search
import SwiftWorkspace.Proofs.Targets

/-!
# The order of arguments

The manifest is read from the arguments of a call by their names, each of which is looked for in
the whole source.  The name of a field's argument stands outside of all values, and every other
label of the same name that counts is inside of further brackets.  What is read is therefore
known from the arguments as a set.
-/

namespace SwiftWorkspace

open Kind (cellsOf isClosed chars)

theorem Field.forall_iff {holds : Field → Prop} : (∀ field, holds field) ↔
    holds .name ∧ holds .platforms ∧ holds .products ∧ holds .dependencies ∧ holds .targets := by
  constructor
  · intro each
    exact ⟨each _, each _, each _, each _, each _⟩
  · rintro ⟨name, platforms, products, dependencies, targets⟩ field
    cases field <;> assumption

instance {holds : Field → Prop} [DecidablePred holds] : Decidable (∀ field, holds field) :=
  decidable_of_iff _ Field.forall_iff.symm

/-- A text around a call: it is closed, its brackets pair up, and it has no label of a manifest. -/
structure Surrounding (text : Text) : Prop where
  closed : isClosed text
  balanced : Balanced (Source.ofText text).cells
  quiet : ∀ field : Field, (Source.ofText text).labelSites field.label
    (Source.ofText text).whole = []

instance (text : Text) : Decidable (Surrounding text) :=
  decidable_of_iff (isClosed text ∧ Balanced (Source.ofText text).cells ∧
      ∀ field : Field, (Source.ofText text).labelSites field.label (Source.ofText text).whole = [])
    ⟨fun ⟨closed, balanced, quiet⟩ => ⟨closed, balanced, quiet⟩,
      fun ⟨closed, balanced, quiet⟩ => ⟨closed, balanced, quiet⟩⟩

namespace NamedValue

def string? (argument : NamedValue) : Option Text :=
  filled? (argument.source.stringIn? argument.source.whole)

def contents (argument : NamedValue) : List Cell :=
  argument.source.cellsIn ⟨1, argument.source.length - 1⟩

def Gives (argument : NamedValue) : Field → Prop
  | .name => argument.string?.isSome
  | _ => argument.source.arrayOf? argument.source.whole = some ⟨1, argument.source.length - 1⟩

instance (argument : NamedValue) : (field : Field) → Decidable (argument.Gives field)
  | .name => inferInstanceAs (Decidable (argument.string?.isSome = true))
  | .platforms | .products | .dependencies | .targets =>
      inferInstanceAs (Decidable (argument.source.arrayOf? argument.source.whole = _))

end NamedValue

/-- Arguments with different names that give every field of a manifest. -/
structure Complete (arguments : List NamedValue) : Prop where
  fits : ∀ argument ∈ arguments, argument.Fits
  distinct : (arguments.map NamedValue.name).Nodup
  provides : ∀ field : Field, ∃ argument ∈ arguments, argument.name = field.label ∧
    argument.Gives field

instance (arguments : List NamedValue) : Decidable (Complete arguments) :=
  decidable_of_iff ((∀ argument ∈ arguments, argument.Fits) ∧
    (arguments.map NamedValue.name).Nodup ∧
      ∀ field : Field, ∃ argument ∈ arguments, argument.name = field.label ∧ argument.Gives field)
    ⟨fun ⟨fits, distinct, provides⟩ => ⟨fits, distinct, provides⟩,
      fun ⟨fits, distinct, provides⟩ => ⟨fits, distinct, provides⟩⟩

/-- Whether the values of arguments for no field have labels that count inside of brackets only. -/
def Sheltered (arguments : List NamedValue) : Prop :=
  ∀ argument ∈ arguments, (∀ field : Field, argument.name ≠ field.label) →
    ∀ field : Field, 0 ∉ Source.hits field.label field.good 0 argument.source.cells

instance (arguments : List NamedValue) : Decidable (Sheltered arguments) :=
  inferInstanceAs
    (Decidable (∀ argument ∈ arguments, (∀ field : Field, argument.name ≠ field.label) →
    ∀ field : Field, 0 ∉ Source.hits field.label field.good 0 argument.source.cells))

namespace NamedValue

variable {argument : NamedValue}

theorem Gives.array {field : Field} (gives : argument.Gives field) (other : field ≠ .name) :
    argument.source.arrayOf? argument.source.whole = some ⟨1, argument.source.length - 1⟩ := by
  cases field with
  | name => exact absurd rfl other
  | _ => exact gives

theorem Gives.brackets {field : Field} (gives : argument.Gives field) (other : field ≠ .name)
    (fits : argument.Fits) :
    ∃ closing, argument.source.cells = ⟨'[', .code⟩ :: (argument.contents ++ [closing]) ∧
      Pairs ⟨'[', .code⟩ closing ∧ Balanced argument.contents := by
  have array := gives.array other
  have whole : argument.source.whole = ⟨0, 0 + argument.source.cells.length⟩ := by
    simp [Source.whole, Source.length]
  rw [whole] at array
  have stands : argument.source.Shows 0 argument.source.cells := ⟨[], by simp⟩
  obtain ⟨inner, tail, ⟨inside, ⟨char, kind⟩, closing, rest, cells, rfl, opens, pairs⟩, same⟩ :=
    Source.arrayOf?_eq_some fits.solid.unbroken.balanced stands array
  obtain rfl : char = '[' := opens
  obtain rfl : kind = .code := pairs.opening_code
  have size := congrArg List.length cells
  have stop := congrArg Span.stop same
  simp only [Source.length, List.length_cons, List.length_append] at size stop
  obtain rfl : rest = [] := List.length_eq_zero_iff.mp (by omega)
  have contents : argument.contents = inner := by
    have shows : argument.source.Shows 1 inner := ⟨[closing], by simp [cells]⟩
    have stop_eq : argument.source.length - 1 = 1 + inner.length := by
      simp only [Source.length]
      omega
    rw [NamedValue.contents, stop_eq]
    exact shows.cellsIn
  exact ⟨closing, contents ▸ cells, pairs, contents ▸ inside⟩

theorem Gives.length_contents {field : Field} (gives : argument.Gives field) (other : field ≠ .name)
    (fits : argument.Fits) : argument.contents.length + 2 = argument.source.length := by
  obtain ⟨closing, cells, -⟩ := gives.brackets other fits
  simp [Source.length, cells]

theorem string?_eq_some {text : Text} (found : argument.string? = some text) :
    (∃ rest, argument.source.cells = ⟨'"', .string⟩ :: rest) ∧
      (∀ cell ∈ argument.source.cells, cell.kind = .string) ∧
      filled? (some (Literal.decode (chars argument.source.cells))) = some text := by
  have whole : argument.source.cellsIn argument.source.whole = argument.source.cells := by
    simp [Source.cellsIn, Source.whole, Source.length, Span.size]
  rw [string?, Source.stringIn?, Source.textIn, whole] at found
  cases cells : argument.source.cells with
  | nil => simp [cells, filled?] at found
  | cons first rest =>
      simp only [cells] at found
      split at found
      · rename_i marked
        obtain ⟨mark, inside⟩ : first.char = '"' ∧ ∀ cell ∈ first :: rest, cell.kind = .string := by
          simpa using marked
        obtain ⟨char, kind⟩ := first
        obtain rfl : char = '"' := mark
        obtain rfl : kind = .string := inside _ (.head _)
        exact ⟨⟨rest, rfl⟩, inside, found⟩
      · simp [filled?] at found

/-- The labels in the value of a field are inside of brackets. -/
theorem Gives.lt_depth {field : Field} (gives : argument.Gives field)
    (fits : argument.Fits) {label : Text} (isLabel : IsLabel label) (depth : Nat) :
    ∀ mark ∈ Source.marksFrom label 0 depth false argument.source.cells, depth < mark.depth := by
  by_cases other : field = .name
  · subst other
    obtain ⟨text, found⟩ := Option.isSome_iff_exists.mp gives
    have noColon : ∀ cell ∈ argument.source.cells, cell.isCodeChar ':' = false :=
      fun cell member => by
      simp [Cell.isCodeChar, Cell.isCode, (string?_eq_some found).2.1 cell member]
    simp [Source.marksFrom_of_noColon noColon]
  · obtain ⟨closing, cells, pairs, balanced⟩ := gives.brackets other fits
    have stops : Stops ⟨'[', .code⟩ := by
      obtain ⟨shape, opens, -⟩ := pairs
      exact stops_of_opens opens
    have noColon : ∀ cell ∈ [closing], cell.isCodeChar ':' = false := by
      obtain ⟨shape, -, closes⟩ := pairs
      simpa using (stops_of_closes closes).noColon
    have marks : Source.marksFrom label 0 depth false argument.source.cells =
        (Source.marksFrom label 0 (depth + 1) false argument.contents).map
          (Mark.extend [closing]) := by
      have passed : Source.marksFrom label 0 depth false
          ([] ++ ⟨'[', .code⟩ :: (argument.contents ++ [closing])) =
          _ ++ Source.marksFrom label 0 _ false (argument.contents ++ [closing]) :=
        Source.marksFrom_append isLabel stops (Nat.zero_le _) (by simp) _
      rw [List.nil_append, ← cells] at passed
      rw [passed, Cell.depthOver_nil, pairs.depthAfter_opening,
        Source.marksFrom_append_noColon noColon (Nat.zero_le _)]
      rfl
    rw [marks, Source.marksFrom_deepen isLabel.word balanced]
    intro mark member
    simp only [List.mem_map, Mark.deepen, Mark.extend] at member
    obtain ⟨_, ⟨own, -, rfl⟩, rfl⟩ := member
    simp only
    omega

end NamedValue

namespace Complete

variable {arguments : List NamedValue} (complete : Complete arguments)
include complete

theorem eq_of_name {argument other : NamedValue} (member : argument ∈ arguments)
    (there : other ∈ arguments) (same : argument.name = other.name) : argument = other :=
  List.inj_on_of_nodup_map complete.distinct member there same

theorem gives {argument : NamedValue} (member : argument ∈ arguments) {field : Field}
    (name : argument.name = field.label) : argument.Gives field := by
  obtain ⟨other, there, other_name, gives⟩ := complete.provides field
  rwa [complete.eq_of_name member there (name.trans other_name.symm)]

/-- The labels in the values that count are inside of brackets. -/
theorem lt_depth (sheltered : Sheltered arguments) {argument : NamedValue}
    (member : argument ∈ arguments) (field : Field) (depth : Nat) :
    ∀ mark ∈ Source.marksFrom field.label 0 depth false argument.source.cells,
      field.good mark.behind →
      depth < mark.depth := by
  intro mark found counts
  by_cases known : ∃ own : Field, argument.name = own.label
  · obtain ⟨own, name⟩ := known
    exact (complete.gives member name).lt_depth (complete.fits argument member)
      (isLabel_field field) depth mark found
  · have none := sheltered argument member (fun own name => known ⟨own, name⟩) field
    rw [Source.marksFrom_deepen (isLabel_field field).word
      (complete.fits argument member).solid.unbroken.balanced] at found
    obtain ⟨own, inside, rfl⟩ := List.mem_map.mp found
    have positive : own.depth ≠ 0 := fun zero => none <|
      List.mem_map.mpr ⟨own, List.mem_filter.mpr ⟨inside, counts⟩, zero⟩
    simp only [Mark.deepen]
    omega

theorem split_unique {before before' behind behind' : List NamedValue} {argument : NamedValue}
    (split : arguments = before ++ argument :: behind)
    (other : arguments = before' ++ argument :: behind') : behind = behind' := by
  have nodup := List.Nodup.of_map _ complete.distinct
  rw [split, List.nodup_middle, List.nodup_cons, List.mem_append] at nodup
  obtain ⟨notBefore, notBehind⟩ := not_or.mp nodup.1
  exact ((List.append_cons_inj_of_notMem notBefore notBehind).mp (split.symm.trans other)).2.2

end Complete

section Call

variable {front back : Text} {arguments before behind : List NamedValue} {argument : NamedValue}
    {field : Field}

def nameMark (depth : Nat) (argument : NamedValue) (behind : List NamedValue) : Mark :=
  ⟨depth, ⟨' ', .code⟩ :: (argument.source.cells ++ tailCells behind)⟩

def nameSite (front back : Text) (arguments : List NamedValue) (argument : NamedValue)
    (behind : List NamedValue) : LabelSite :=
  (callFrame front back).innerSite (argumentCells arguments)
    (nameMark ((callFrame front back).depth + 1) argument behind)

def arraySpan (site : LabelSite) (argument : NamedValue) : Span :=
  ⟨site.position + 2, site.position + 2 + argument.contents.length⟩

theorem calm_tailCells (behind : List NamedValue) : Calm (tailCells behind) := by
  cases behind with
  | nil => exact ⟨by simp, by simp⟩
  | cons other behind =>
      rw [tailCells_cons]
      exact calm_cons rfl (by decide) (by decide) _

theorem filled?_textBehind?_nameMark {text : Text} (found : argument.string? = some text)
    (depth : Nat)
    (behind : List NamedValue) :
    filled? (textBehind? (nameMark depth argument behind).behind) = some text := by
  obtain ⟨⟨rest, cells⟩, inside, decoded⟩ := NamedValue.string?_eq_some found
  have calm := calm_tailCells behind
  have whole : textBehind? (⟨' ', .code⟩ :: (argument.source.cells ++ tailCells behind)) =
      textBehind? (⟨' ', .code⟩ :: argument.source.cells) :=
    textBehind?_append (⟨' ', .code⟩ :: argument.source.cells) calm.head fun cell next =>
      (calm.behind cell next).1
  have blank : Cell.isTrivia ⟨' ', .code⟩ := by decide
  have mark : Cell.isTrivia ⟨'"', .string⟩ = false := by decide
  have string : textBehind? (⟨' ', .code⟩ :: argument.source.cells) =
      some (Literal.decode (chars argument.source.cells)) := by
    have dropped : (⟨' ', .code⟩ :: argument.source.cells).dropWhile Cell.isTrivia =
        argument.source.cells := by
      simp [cells, blank, mark]
    have taken : argument.source.cells.takeWhile (·.kind = .string) = argument.source.cells :=
      List.takeWhile_eq_self_iff.mpr (by simpa using inside)
    have first : argument.source.cells.head?.any (·.char = '"') := by simp [cells]
    simp only [textBehind?, dropped, taken, first, if_true]
  rw [nameMark, whole, string]
  exact decoded

/-- At no depth is there a label of a manifest in a text around a call. -/
theorem Surrounding.marksFrom {text : Text} (surrounding : Surrounding text) (field : Field)
    (depth : Nat) : Source.marksFrom field.label 0 depth false (Source.ofText text).cells = [] := by
  have quiet := surrounding.quiet field
  rw [Source.labelSites_whole, List.map_eq_nil_iff] at quiet
  rw [Source.marksFrom_deepen (isLabel_field field).word surrounding.balanced, quiet, List.map_nil]

theorem frontMarks_call (surrounding : Surrounding front) (back : Text) (field : Field) :
    (callFrame front back).frontMarks field.label = [] := by
  have noColon : ∀ cell ∈ cellsOf .code "Package".toList, cell.isCodeChar ':' = false := by decide
  rw [Frame.frontMarks, callFrame, Source.marksFrom_append_noColon noColon (Nat.zero_le _),
    surrounding.marksFrom field, List.map_nil]

theorem backMarks_call (front : Text) (surrounding : Surrounding back) (field : Field) :
    (callFrame front back).backMarks field.label = [] :=
  surrounding.marksFrom field _

section Split

variable (complete : Complete arguments) (split : arguments = before ++ argument :: behind)
  (name : argument.name = field.label)
include complete split name

theorem nameMark_mem (front back : Text) :
    nameMark ((callFrame front back).depth + 1) argument behind ∈
    (callFrame front back).innerMarks field.label (argumentCells arguments) :=
  (Source.mem_marksFrom_arguments (isLabel_field field) _ complete.fits).mpr
    ⟨before, argument, behind, split, .inl ⟨name, rfl⟩⟩

theorem leastSite?_call (sheltered : Sheltered arguments) (ahead : Surrounding front)
    (after : Surrounding back)
    {ok : LabelSite → Bool} (good : ok (nameSite front back arguments argument behind))
    (counts : ∀ mark ∈ (callFrame front back).innerMarks field.label (argumentCells arguments),
      ok ((callFrame front back).innerSite (argumentCells arguments) mark) →
        field.good mark.behind) :
    leastSite? ok ((callSource front back arguments).labelSites field.label
      (callSource front back arguments).whole) =
      some (nameSite front back arguments argument behind) := by
  have balanced := balanced_argumentCells complete.fits
  have sites := (callFrame front back).mem_labelSites_fill (isLabel_field field) balanced
  have own := nameMark_mem complete split name front back
  refine leastSite?_eq_some_iff.mpr ⟨(sites _).mpr (.inner own), good, fun other inside holds => ?_⟩
  cases (sites other).mp inside with
  | front found => simp [frontMarks_call ahead] at found
  | back found => simp [backMarks_call front after] at found
  | inner found =>
      obtain ⟨before', argument', behind', split', found⟩ :=
        (Source.mem_marksFrom_arguments (isLabel_field field) _ complete.fits).mp found
      rcases found with ⟨name', rfl⟩ | ⟨mark, deep, rfl⟩
      · obtain rfl : argument = argument' :=
          complete.eq_of_name (by simp [split]) (by simp [split'])
          (name.trans name'.symm)
        obtain rfl := complete.split_unique split split'
        exact LabelSite.le_refl _
      · have own := counts _ found holds
        rw [Mark.extend, field.steady_good _ _ (calm_tailCells behind')] at own
        have deeper := complete.lt_depth sheltered (by simp [split'] : argument' ∈ arguments)
          field _ mark deep own
        exact LabelSite.le_iff.mpr (.inl deeper)

theorem position_nameSite (front back : Text) :
    (nameSite front back arguments argument behind).position + 1 + argument.source.length +
      (tailCells behind).length =
      (callFrame front back).front.length + 1 + (argumentCells arguments).length := by
  obtain ⟨skipped, whole⟩ := Source.marksFrom_le (nameMark_mem complete split name front back)
  have size := congrArg List.length whole
  simp only [nameMark, List.length_append, List.length_cons] at size
  simp only [nameSite, nameMark, Frame.innerSite, Mark.site, Source.length, List.length_cons,
    List.length_append]
  omega

/-- Behind the name stand a blank, the value and what follows it. -/
theorem drop_nameSite (front back : Text) :
    (callSource front back arguments).cells.drop
      (nameSite front back arguments argument behind).position =
      ⟨' ', .code⟩ :: (argument.source.cells ++ (tailCells behind ++
        ⟨')', .code⟩ :: (callFrame front back).back)) := by
  have whole := (callFrame front back).drop_innerSite (nameMark_mem complete split name front back)
  refine whole.trans ?_
  simp [nameMark, callFrame]

theorem shows_contents (gives : argument.Gives field) (other : field ≠ .name) (front back : Text) :
    (callSource front back arguments).Shows
      ((nameSite front back arguments argument behind).position + 2) argument.contents := by
  have fits := complete.fits argument (by simp [split])
  obtain ⟨closing, cells, -⟩ := gives.brackets other fits
  refine ⟨closing :: (tailCells behind ++ ⟨')', .code⟩ :: (callFrame front back).back), ?_⟩
  rw [← List.drop_drop, drop_nameSite complete split name, cells]
  simp

theorem arrayBehind?_nameSite (gives : argument.Gives field) (other : field ≠ .name)
    (front back : Text) :
    (callSource front back arguments).arrayBehind?
      (nameSite front back arguments argument behind).position
        (callSource front back arguments).length =
      some (arraySpan (nameSite front back arguments argument behind) argument) := by
  obtain ⟨closing, cells, pairs, balanced⟩ :=
    gives.brackets other (complete.fits argument (by simp [split]))
  have place := position_nameSite complete split name front back
  have size : (callSource front back arguments).length = _ :=
    (callFrame front back).length_fill (argumentCells arguments)
  have blank : ∀ cell ∈ [(⟨' ', .code⟩ : Cell)], cell.isTrivia := by decide
  have opens : Cell.isTrivia ⟨'[', .code⟩ = false := by decide
  rw [Source.arrayBehind?_eq (by omega), drop_nameSite complete split name, cells]
  generalize tailCells behind ++ ⟨')', .code⟩ :: (callFrame front back).back = rest
  have whole : (⟨' ', .code⟩ : Cell) :: (⟨'[', .code⟩ :: (argument.contents ++ [closing]) ++ rest) =
      [⟨' ', .code⟩] ++ ⟨'[', .code⟩ :: (argument.contents ++ closing :: rest) := by
    simp
  have closes : (⟨[⟨' ', .code⟩] ++ ⟨'[', .code⟩ :: (argument.contents ++ closing :: rest)⟩ :
      Source).closing? 1 =
      some (1 + 1 + argument.contents.length) :=
    Source.closing?_eq_some_iff.mpr
      ⟨[⟨' ', .code⟩], ⟨'[', .code⟩, argument.contents, closing, rest, rfl, rfl,
        pairs, balanced, rfl⟩
  rw [whole, Source.arrayIn?_append blank opens, if_pos (by decide), List.length_singleton, closes]
  simp [arraySpan, Span.shift, Nat.add_assoc]

theorem labeledArray?_call (sheltered : Sheltered arguments) (ahead : Surrounding front)
    (after : Surrounding back) (other : field ≠ .name) {excluded : List Span}
    (visible : ∀ span ∈ excluded, span.holds
      (nameSite front back arguments argument behind).position = false) :
    (callSource front back arguments).labeledArray? field.label excluded =
      some (arraySpan (nameSite front back arguments argument behind) argument) := by
  have gives := complete.gives (by simp [split] : argument ∈ arguments) name
  have array := arrayBehind?_nameSite complete split name gives other front back
  have good : (callSource front back arguments).arraysAt excluded
      (nameSite front back arguments argument behind) := by
    have apart : excluded.any (·.holds (nameSite front back arguments argument behind).position) =
        false := by
      simpa using visible
    simp [Source.arraysAt, apart, array]
  have counts : ∀ mark ∈ (callFrame front back).innerMarks field.label (argumentCells arguments),
      (callSource front back arguments).arraysAt excluded
        ((callFrame front back).innerSite (argumentCells arguments) mark) →
          field.good mark.behind := by
    intro mark member valued
    have opens :=
      ((callFrame front back).arrayBehind?_innerSite
      (balanced_argumentCells complete.fits) member).1
    rw [Field.good_of_ne other, ← opens]
    exact (Bool.and_eq_true_iff.mp valued).2
  rw [Source.labeledArray?_eq, Source.arraySite?,
    leastSite?_call complete split name sheltered ahead after good counts]
  exact array

theorem packageName_call (sheltered : Sheltered arguments) (ahead : Surrounding front)
    (after : Surrounding back)
    (own : field = .name) : (callSource front back arguments).packageName =
      argument.string?.getD unknownPackage := by
  subst own
  have gives : argument.string?.isSome :=
    complete.gives (by simp [split] : argument ∈ arguments) name
  obtain ⟨text, found⟩ := Option.isSome_iff_exists.mp gives
  have read : (callSource front back arguments).nameBehind?
      (nameSite front back arguments argument behind).position = some text :=
    ((callFrame front back).nameBehind?_innerSite
      (nameMark_mem complete split name front back)).trans
      (filled?_textBehind?_nameMark found _ behind)
  have good : ((callSource front back arguments).nameBehind?
      (nameSite front back arguments argument behind).position).isSome := by
    simp [read]
  have counts :
      ∀ mark ∈ (callFrame front back).innerMarks Field.name.label (argumentCells arguments),
      ((callSource front back arguments).nameBehind?
        ((callFrame front back).innerSite (argumentCells arguments) mark).position).isSome →
          Field.name.good mark.behind := by
    intro mark member valued
    have named := (callFrame front back).nameBehind?_innerSite member
    exact (congrArg Option.isSome named).symm.trans valued
  rw [Source.packageName_eq, Source.nameSite?,
    leastSite?_call complete split name sheltered ahead after good counts]
  simp [read, found]

end Split

theorem length_tailCells_lt {first : NamedValue} {middle later : List NamedValue}
    (same : first :: later = middle ++ argument :: behind) (differs : first ≠ argument) :
    argument.source.length + (tailCells behind).length < (tailCells later).length := by
  cases middle with
  | nil => exact absurd (List.cons.inj same).1 differs
  | cons other middle =>
      obtain ⟨-, rfl⟩ := List.cons.inj same
      simp only [List.append_eq, tailCells_append, tailCells_cons, NamedValue.cells, Source.length,
        List.length_append, cellsOf, List.length_map, List.length_cons]
      omega

theorem holds_arraySpan_of_ne (complete : Complete arguments)
    (split : arguments = before ++ argument :: behind)
    (name : argument.name = field.label) {before' behind' : List NamedValue}
    {other : NamedValue} {own : Field}
    (split' : arguments = before' ++ other :: behind') (name' : other.name = own.label)
    (array : own ≠ .name) (differs : argument ≠ other) (front back : Text) :
    (arraySpan (nameSite front back arguments other behind') other).holds
      (nameSite front back arguments argument behind).position = false := by
  have member : other ∈ arguments := by simp [split']
  have size := (complete.gives member name').length_contents array (complete.fits other member)
  have here := position_nameSite complete split name front back
  have there := position_nameSite complete split' name' front back
  have apart : (nameSite front back arguments argument behind).position <
      (nameSite front back arguments other behind').position ∨
        (nameSite front back arguments other behind').position + other.source.length <
          (nameSite front back arguments argument behind).position := by
    rcases List.append_eq_append_iff.mp (split.symm.trans split') with ⟨middle, -, same⟩ |
      ⟨middle, -, same⟩
    · have more := length_tailCells_lt same differs
      omega
    · have more := length_tailCells_lt same differs.symm
      omega
  cases inside : (arraySpan (nameSite front back arguments other behind') other).holds
      (nameSite front back arguments argument behind).position with
  | false => rfl
  | true =>
      simp only [Span.holds, Bool.and_eq_true, decide_eq_true_eq] at inside
      simp only [arraySpan] at inside
      omega

section Given

variable (complete : Complete arguments) (sheltered : Sheltered arguments)
    (ahead : Surrounding front)
  (after : Surrounding back) {given : Field → NamedValue} (there : ∀ field, given field ∈ arguments)
  (name : ∀ field, (given field).name = field.label)
include complete sheltered ahead after there name

theorem outline_call : (callSource front back arguments).outline =
    ⟨some (given .platforms).contents, some (given .products).contents,
      some (given .dependencies).contents, some (given .targets).contents⟩ := by
  choose before behind split using fun field => List.append_of_mem (there field)
  let span (field : Field) : Span :=
    arraySpan (nameSite front back arguments (given field) (behind field)) (given field)
  have array (field : Field) (other : field ≠ .name) (excluded : List Span)
      (visible : ∀ span ∈ excluded,
      span.holds (nameSite front back arguments (given field) (behind field)).position = false) :
      (callSource front back arguments).labeledArray? field.label excluded = some (span field) :=
    labeledArray?_call complete (split field) (name field) sheltered ahead after other visible
  have contents (field : Field) (other : field ≠ .name) :
      (callSource front back arguments).cellsIn (span field) = (given field).contents :=
    (shows_contents complete (split field) (name field)
      (complete.gives (there field) (name field)) other
      front back).cellsIn
  -- The dependencies are looked for outside of the targets and the products, where their name
  -- stands.
  have apart (own : Field) (other : own ≠ .name) (differs : Field.dependencies.label ≠ own.label) :
      (span own).holds (nameSite front back arguments (given .dependencies)
        (behind .dependencies)).position = false :=
    holds_arraySpan_of_ne complete (split .dependencies) (name .dependencies) (split own)
      (name own) other
      (fun same => differs (by rw [← name, same, name])) front back
  have platforms := array .platforms (by decide) [] (by simp)
  have products := array .products (by decide) [] (by simp)
  have targets := array .targets (by decide) [] (by simp)
  have dependencies := array .dependencies (by decide) [span .targets, span .products]
    (by simp [apart .targets (by decide) (by decide), apart .products (by decide) (by decide)])
  simp only [Source.outline, Source.platformsSpan?, Source.productsSpan?, Source.dependenciesSpan?,
    Source.targetsSpan?, platforms, products, targets, Option.toList_some,
      List.singleton_append, dependencies,
    Option.map_some, contents .platforms (by decide), contents .products (by decide),
    contents .dependencies (by decide), contents .targets (by decide)]

theorem manifest_callText : Manifest.ofText (callText front back arguments) =
    Outline.manifest ⟨some (given .platforms).contents, some (given .products).contents,
      some (given .dependencies).contents, some (given .targets).contents⟩
      ((given .name).string?.getD unknownPackage) := by
  obtain ⟨before, behind, split⟩ := List.append_of_mem (there .name)
  rw [Manifest.ofText, ofText_callText complete.fits ahead.closed back, Source.manifest_outline,
    outline_call complete sheltered ahead after there name,
    packageName_call complete split (name .name) sheltered ahead after rfl]

end Given

end Call

theorem Complete.perm {arguments others : List NamedValue} (complete : Complete arguments)
    (perm : arguments.Perm others) : Complete others where
  fits argument member := complete.fits argument (perm.mem_iff.mpr member)
  distinct := (perm.map _).nodup_iff.mp complete.distinct
  provides field := by
    obtain ⟨argument, member, gives⟩ := complete.provides field
    exact ⟨argument, perm.mem_iff.mp member, gives⟩

theorem Sheltered.perm {arguments others : List NamedValue} (sheltered : Sheltered arguments)
    (perm : arguments.Perm others) : Sheltered others :=
  fun argument member => sheltered argument (perm.mem_iff.mpr member)

/-- The manifest that is read does not depend on the order of the arguments. -/
theorem manifest_of_perm {front back : Text} {arguments others : List NamedValue}
    (ahead : Surrounding front)
    (after : Surrounding back) (complete : Complete arguments) (sheltered : Sheltered arguments)
    (perm : arguments.Perm others) :
    Manifest.ofText (callText front back others) =
      Manifest.ofText (callText front back arguments) := by
  choose given there name gives using complete.provides
  rw [manifest_callText complete sheltered ahead after there name,
    manifest_callText (complete.perm perm) (sheltered.perm perm) ahead after
      (fun field => perm.mem_iff.mp (there field)) name]

/-- Arguments whose values hold the labels of others inside of brackets. -/
def nestedArguments : List NamedValue := [
  ⟨"name".toList, "\"App\"".toList⟩,
  ⟨"platforms".toList, "[.iOS(.v15)]".toList⟩,
  ⟨"products".toList, "[.library(name: \"Core\", targets: [\"Core\"])]".toList⟩,
  ⟨"dependencies".toList, "[.package(name: \"Log\", path: \"../Log\")]".toList⟩,
  ⟨"targets".toList, "[.target(name: \"Core\", dependencies: [\"Log\"])]".toList⟩,
  ⟨"cLanguageStandard".toList, ".of(name: \"C\")".toList⟩]

theorem manifest_reverse_nestedArguments :
    Surrounding "let package = ".toList ∧ Surrounding "\n".toList ∧ Complete nestedArguments ∧
      Sheltered nestedArguments ∧ nestedArguments.Perm nestedArguments.reverse ∧
      Manifest.ofText (callText "let package = ".toList "\n".toList nestedArguments.reverse) =
        Manifest.ofText (callText "let package = ".toList "\n".toList nestedArguments) := by
  have ahead : Surrounding "let package = ".toList := by decide +kernel
  have after : Surrounding "\n".toList := by decide +kernel
  have complete : Complete nestedArguments := by decide +kernel
  have sheltered : Sheltered nestedArguments := by decide +kernel
  have perm := (List.reverse_perm nestedArguments).symm
  exact ⟨ahead, after, complete, sheltered, perm,
    manifest_of_perm ahead after complete sheltered perm⟩

def choosingArguments : List NamedValue := [
  ⟨"name".toList, "\"App\"".toList⟩,
  ⟨"platforms".toList, "[]".toList⟩,
  ⟨"products".toList, "[]".toList⟩,
  ⟨"dependencies".toList, "[]".toList⟩,
  ⟨"targets".toList, "[]".toList⟩,
  ⟨"defaultLocalization".toList, "beta ? name : \"en\"".toList⟩]

/-- Where a value has such a label, the order decides which one is read. -/
theorem manifest_reverse_choosingArguments :
    ¬∀ (front back : Text) (arguments others : List NamedValue),
    Surrounding front → Surrounding back → Complete arguments → arguments.Perm others →
      Manifest.ofText (callText front back others) =
        Manifest.ofText (callText front back arguments) := by
  intro same
  have complete : Complete choosingArguments := by decide +kernel
  have names := congrArg Manifest.name
    (same [] [] choosingArguments choosingArguments.reverse (by decide +kernel)
    (by decide +kernel) complete (List.reverse_perm _).symm)
  simp only [Manifest.ofText, Manifest.ofSource, Source.packageName_eq,
    Source.nameSite?_eq] at names
  revert names
  decide +kernel

end SwiftWorkspace
