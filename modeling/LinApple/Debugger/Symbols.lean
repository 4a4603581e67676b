import LinApple.Debugger.DelayedTargets
import LinApple.Lib.SortedMap
import LinApple.Lib.Sizes

/-!
# Symbols

Nine tables give addresses a name. A name is looked up in the tables that are displayed, from the
last to the first, and in a table from the lowest address on, so that of several addresses with
one name the lowest is found. Defining a symbol and removing one take out the address that is
found, and only that: where a table has the name at other addresses, these are found next
(`symbolUpdate_found`).

A table maps addresses to names, in the order of the addresses (`SortedMap`), and the order is
what a lookup goes by. Nothing keeps two addresses from having one name. The commands never make
it so, but a table is also read from files, and a file may say anything; so the tables are
arbitrary here, and not only those that commands lead to. For the same reason a name need not be
in capital letters where it is stored. It is compared without regard to case, and the theorem is
about every spelling.

The hypotheses are those of the situation: the table is one that is displayed, the name is not too
long, and no table that is searched before has it. Without the last one the definition would be
hidden, and rightly so.

There are three statements. After a definition every spelling of the name leads to the address, if
and only if at most one address below it had the name; one above it does no harm, since the lower
one is found. After a removal no spelling leads into the table, if and only if the name was there
once at most. And whatever the tables hold, no other name is touched, but for the one that stood
at the address being defined: there was room for one.
-/

namespace LinApple.Debugger

open MiniAssembler (sameSymbol)

/-- `MAX_SYMBOLS_LEN` -/
def maxSymbolsLen : Nat := 31

/-- **The symbol tables.** -/
structure Symbols where
  /-- `symbols`: the name of an address. -/
  tables : Fin 9 → SortedMap Nat (List Char)
  /-- `display_symbol_tables` -/
  displaySymbolTables : Nat

namespace Symbols

variable (s : Symbols)

/-- The table is displayed. -/
def Displayed (table : Fin 9) : Prop := s.displaySymbolTables.testBit table

instance (table : Fin 9) : Decidable (s.Displayed table) :=
  inferInstanceAs (Decidable (_ = true))

/-- The lowest address of a name in a table. -/
def firstAddress (table : Fin 9) (symbol : List Char) : Option Nat :=
  (s.tables table).first fun name => sameSymbol name symbol

/-- What the search finds in a table. -/
def lookup (symbol : List Char) (table : Fin 9) : Option (Nat × Fin 9) :=
  if (s.tables table).isEmpty then none
  else if ¬ s.Displayed table then none
  else (s.firstAddress table symbol).map fun address => (address, table)

/-- **`FindAddressFromSymbol`**, with the table. -/
def findAddressFromSymbol (symbol : List Char) : Option (Nat × Fin 9) :=
  (List.finRange 9).reverse.findSome? (s.lookup symbol)

/-- A table is set. -/
def setTable (table : Fin 9) (entries : SortedMap Nat (List Char)) : Symbols :=
  { s with tables := Function.update s.tables table entries }

/-- The address that is found is taken out, if it lies in the table. -/
def eraseFound (table : Fin 9) (name : List Char) : Symbols :=
  match s.findAddressFromSymbol name with
  | none => s
  | some (previous, found) =>
    if found = table then s.setTable table ((s.tables table).erase previous) else s

/-- **`SymbolUpdate`**. `removed` is `args[2].sArg`. -/
def symbolUpdate (table : Fin 9) (symbolName : List Char) (address : Nat)
    (removeSymbol updateSymbol : Bool) (removed : List Char) : Symbols :=
  let name := if removeSymbol then removed else symbolName
  if name.length < maxSymbolsLen then
    let erased := s.eraseFound table name
    if updateSymbol then erased.setTable table ((erased.tables table).insert address name)
    else erased
  else s

/-- A symbol is defined: `CmdSymbolsUpdate` with `name = address`. -/
def define (table : Fin 9) (name : List Char) (address : Nat) : Symbols :=
  s.symbolUpdate table name address false true []

/-- A symbol is removed: `CmdSymbolsUpdate` with `! name`. -/
def remove (table : Fin 9) (name : List Char) : Symbols :=
  s.symbolUpdate table [] 0 true false name

/-! ## Lookups -/

variable {s : Symbols} {table : Fin 9} {name symbol : List Char} {address : Nat}

theorem sameSymbol_refl (a : List Char) : sameSymbol a a = true := decide_eq_true rfl

theorem sameSymbol_iff {a b : List Char} :
    sameSymbol a b = true ↔ a.map Char.toLower = b.map Char.toLower := decide_eq_true_iff

theorem sameSymbol_congr {a b : List Char} (h : sameSymbol a b = true) (c : List Char) :
    sameSymbol c a = sameSymbol c b := by
  unfold sameSymbol
  rw [sameSymbol_iff.1 h]

/-- The name in another case is found in the same places. -/
theorem firstAddress_congr (h : sameSymbol name symbol = true) (table : Fin 9) :
    s.firstAddress table name = s.firstAddress table symbol := by
  unfold firstAddress
  simp only [sameSymbol_congr h]

/-- A table without entries gives what the walk through it would. -/
theorem lookup_eq (symbol : List Char) (table : Fin 9) :
    s.lookup symbol table = if s.Displayed table then
      (s.firstAddress table symbol).map fun address => (address, table) else none := by
  unfold lookup
  by_cases hempty : (s.tables table).isEmpty = true
  · have hfirst : s.firstAddress table symbol = none := by
      rw [firstAddress, SortedMap.first, List.isEmpty_iff.1 hempty]
      rfl
    rw [if_pos hempty, hfirst, Option.map_none, ite_self]
  · rw [if_neg hempty, ite_not]

/-- The tables before one in the search are the later ones. -/
theorem mem_before_iff {before after : List (Fin 9)} {table : Fin 9}
    (h : (List.finRange 9).reverse = before ++ table :: after) (other : Fin 9) :
    other ∈ before ↔ table < other := by
  have hsorted : (before ++ table :: after).Pairwise (fun a b => b < a) := by
    rw [← h, List.pairwise_reverse]
    exact List.pairwise_lt_finRange 9
  obtain ⟨-, hcons, hbefore⟩ := List.pairwise_append.1 hsorted
  refine ⟨fun hmem => hbefore other hmem table (List.mem_cons_self ..), fun hlt => ?_⟩
  have hmem : other ∈ before ++ table :: after := by
    rw [← h]
    simp
  rcases List.mem_append.1 hmem with hmem | hmem
  · exact hmem
  · rcases List.mem_cons.1 hmem with rfl | hmem
    · exact absurd hlt (Nat.lt_irrefl _)
    · exact absurd ((List.pairwise_cons.1 hcons).1 other hmem) (Nat.lt_asymm hlt)

/-- **What is found**: the lowest address in the last displayed table that has the name. -/
theorem findAddressFromSymbol_eq_some_iff :
    s.findAddressFromSymbol symbol = some (address, table)
      ↔ s.Displayed table ∧ s.firstAddress table symbol = some address
        ∧ ∀ later, table < later → s.Displayed later → s.firstAddress later symbol = none := by
  unfold findAddressFromSymbol
  rw [List.findSome?_eq_some_iff]
  constructor
  · rintro ⟨before, found, after, htables, hfound, hbefore⟩
    rw [lookup_eq] at hfound
    obtain ⟨hdisplayed, haddress⟩ := Option.ite_none_right_eq_some.1 hfound
    obtain ⟨_, hfirst, heq⟩ := Option.map_eq_some_iff.1 haddress
    obtain ⟨rfl, rfl⟩ := Prod.mk.inj heq
    refine ⟨hdisplayed, hfirst, fun later hlater hshown => ?_⟩
    have hnone := hbefore later ((mem_before_iff htables later).2 hlater)
    rw [lookup_eq, if_pos hshown] at hnone
    exact Option.map_eq_none_iff.1 hnone
  · rintro ⟨hdisplayed, hfirst, hlater⟩
    obtain ⟨before, after, htables⟩ := List.append_of_mem
      (show table ∈ (List.finRange 9).reverse by simp)
    refine ⟨before, table, after, htables, ?_, fun later hmem => ?_⟩
    · rw [lookup_eq, if_pos hdisplayed, hfirst]
      rfl
    · have hlt := (mem_before_iff htables later).1 hmem
      rw [lookup_eq]
      by_cases hshown : s.Displayed later
      · rw [if_pos hshown, hlater later hlt hshown]
        rfl
      · exact if_neg hshown

/-- Tables that are displayed alike and have a name at the same lowest addresses find it
alike. -/
theorem findAddressFromSymbol_congr {s' : Symbols}
    (hdisplayed : s'.displaySymbolTables = s.displaySymbolTables)
    (hfirst : ∀ table, s'.firstAddress table symbol = s.firstAddress table symbol) :
    s'.findAddressFromSymbol symbol = s.findAddressFromSymbol symbol := by
  refine Option.ext fun found => ?_
  obtain ⟨address, table⟩ := found
  rw [findAddressFromSymbol_eq_some_iff, findAddressFromSymbol_eq_some_iff]
  simp only [Displayed, hdisplayed, hfirst]

/-! ## Addresses that hold a name -/

/-- **An address of a table holds a name**, in some case. -/
def Holds (s : Symbols) (table : Fin 9) (symbol : List Char) (address : Nat) : Prop :=
  ∃ name, (address, name) ∈ (s.tables table).entries ∧ sameSymbol name symbol = true

theorem firstAddress_eq_some_iff :
    s.firstAddress table symbol = some address
      ↔ s.Holds table symbol address ∧ ∀ other, s.Holds table symbol other → address ≤ other := by
  rw [firstAddress, SortedMap.first_eq_some_iff]
  exact and_congr_right fun _ => ⟨fun h other ⟨name, hmem, hname⟩ => h (other, name) hmem hname,
    fun h e hmem hname => h e.1 ⟨e.2, hmem, hname⟩⟩

theorem firstAddress_eq_none_iff :
    s.firstAddress table symbol = none ↔ ∀ address, ¬ s.Holds table symbol address := by
  rw [firstAddress, SortedMap.first_eq_none_iff]
  exact ⟨fun h address ⟨name, hmem, hname⟩ => h (address, name) hmem hname,
    fun h e hmem hname => h e.1 ⟨e.2, hmem, hname⟩⟩

/-! ## Updates -/

theorem holds_setTable_self (entries : SortedMap Nat (List Char)) :
    (s.setTable table entries).Holds table symbol address
      ↔ ∃ name, (address, name) ∈ entries.entries ∧ sameSymbol name symbol = true := by
  simp only [Holds, setTable, Function.update_self]

theorem holds_setTable_of_ne {other : Fin 9} (hne : other ≠ table)
    (entries : SortedMap Nat (List Char)) :
    (s.setTable table entries).Holds other symbol address ↔ s.Holds other symbol address := by
  simp only [Holds, setTable, Function.update_of_ne hne]

/-- **Only the address that is found goes.** -/
theorem holds_eraseFound {other : Fin 9} :
    (s.eraseFound table name).Holds other symbol address
      ↔ s.Holds other symbol address
        ∧ ¬ (other = table ∧ s.findAddressFromSymbol name = some (address, table)) := by
  unfold eraseFound
  cases hfound : s.findAddressFromSymbol name with
  | none => simp
  | some found =>
    obtain ⟨previous, found⟩ := found
    dsimp only
    by_cases hin : found = table
    · subst hin
      rw [if_pos rfl]
      by_cases hother : other = found
      · subst hother
        rw [holds_setTable_self]
        simp only [SortedMap.mem_erase, Holds, true_and, Option.some.injEq, Prod.mk.injEq, and_true]
        constructor
        · rintro ⟨name, ⟨hmem, hne⟩, hname⟩
          exact ⟨⟨name, hmem, hname⟩, Ne.symm hne⟩
        · rintro ⟨⟨name, hmem, hname⟩, hne⟩
          exact ⟨name, ⟨hmem, Ne.symm hne⟩, hname⟩
      · rw [holds_setTable_of_ne hother]
        exact (and_iff_left fun h => hother h.1).symm
    · rw [if_neg hin]
      exact (and_iff_left fun h => hin (Prod.mk.inj (Option.some.inj h.2)).2).symm

theorem displaySymbolTables_eraseFound :
    (s.eraseFound table name).displaySymbolTables = s.displaySymbolTables := by
  unfold eraseFound
  split
  · rfl
  · split
    · rfl
    · rfl

theorem define_eq (hlen : name.length < maxSymbolsLen) :
    s.define table name address = (s.eraseFound table name).setTable table
      (((s.eraseFound table name).tables table).insert address name) := by
  unfold define symbolUpdate
  exact if_pos hlen

theorem remove_eq (hlen : name.length < maxSymbolsLen) :
    s.remove table name = s.eraseFound table name := by
  unfold remove symbolUpdate
  exact if_pos hlen

/-- **What holds a name after a definition.** -/
theorem holds_define (hlen : name.length < maxSymbolsLen) {other : Fin 9} {place : Nat} :
    (s.define table name address).Holds other symbol place
      ↔ other = table ∧ place = address ∧ sameSymbol name symbol = true
        ∨ ¬ (other = table ∧ place = address) ∧ s.Holds other symbol place
          ∧ ¬ (other = table ∧ s.findAddressFromSymbol name = some (place, table)) := by
  rw [define_eq hlen, ← holds_eraseFound]
  by_cases hother : other = table
  · subst hother
    rw [holds_setTable_self]
    simp only [SortedMap.mem_insert, Holds, true_and, Prod.mk.injEq]
    constructor
    · rintro ⟨found, ⟨rfl, rfl⟩ | ⟨hmem, hne⟩, hname⟩
      · exact .inl ⟨rfl, hname⟩
      · exact .inr ⟨hne, found, hmem, hname⟩
    · rintro (⟨rfl, hname⟩ | ⟨hne, found, hmem, hname⟩)
      · exact ⟨name, .inl ⟨rfl, rfl⟩, hname⟩
      · exact ⟨found, .inr ⟨hmem, hne⟩, hname⟩
  · rw [holds_setTable_of_ne hother]
    simp [hother]

/-! ## What is found after an update -/

section Update

variable (hshown : s.Displayed table) (hlen : name.length < maxSymbolsLen)
  (hearlier : ∀ later, table < later → s.Displayed later →
    ∀ address, ¬ s.Holds later name address)

include hshown hearlier

/-- The lowest address of the name in the table is the one that is found. -/
theorem findAddressFromSymbol_iff_lowest {place : Nat} :
    s.findAddressFromSymbol name = some (place, table)
      ↔ s.Holds table name place ∧ ∀ other, s.Holds table name other → place ≤ other := by
  rw [findAddressFromSymbol_eq_some_iff, firstAddress_eq_some_iff]
  refine ⟨fun h => h.2.1, fun h => ⟨hshown, h, fun later hlater hd => ?_⟩⟩
  exact firstAddress_eq_none_iff.2 (hearlier later hlater hd)

include hlen

/-- **A definition is found** just where the table had the name at no two lower addresses. -/
theorem define_found_iff :
    (s.define table name address).findAddressFromSymbol name = some (address, table)
      ↔ ∀ a b, s.Holds table name a → s.Holds table name b → a < address → b < address →
        a = b := by
  have hdisplayed : (s.define table name address).displaySymbolTables = s.displaySymbolTables := by
    rw [define_eq hlen]
    exact displaySymbolTables_eraseFound
  have hlater : ∀ later, table < later → (s.define table name address).Displayed later →
      ∀ place, ¬ (s.define table name address).Holds later name place := by
    intro later hlt hd place hholds
    rw [Displayed, hdisplayed] at hd
    rcases (holds_define hlen).1 hholds with ⟨heq, -⟩ | ⟨-, hheld, -⟩
    · exact absurd heq (Fin.ne_of_gt hlt)
    · exact hearlier later hlt hd place hheld
  have hshown' : (s.define table name address).Displayed table := by
    rw [Displayed, hdisplayed]
    exact hshown
  have hself : (s.define table name address).Holds table name address :=
    (holds_define hlen).2 (.inl ⟨rfl, rfl, sameSymbol_refl name⟩)
  rw [findAddressFromSymbol_iff_lowest hshown' hlater]
  constructor
  · rintro ⟨-, hleast⟩ a b ha hb halt hblt
    -- an address below the new one is only gone if it was the lowest
    have hlowest : ∀ c, s.Holds table name c → c < address →
        s.findAddressFromSymbol name = some (c, table) := by
      intro c hc hlt
      by_contra hne
      have hholds : (s.define table name address).Holds table name c :=
        (holds_define hlen).2 (.inr ⟨fun h => Nat.ne_of_lt hlt h.2, hc, fun h => hne h.2⟩)
      exact absurd (hleast c hholds) (Nat.not_le.2 hlt)
    have hsame := (hlowest a ha halt).symm.trans (hlowest b hb hblt)
    exact (Prod.mk.inj (Option.some.inj hsame)).1
  · intro hone
    refine ⟨hself, fun other hother => ?_⟩
    rcases (holds_define hlen).1 hother with ⟨-, rfl, -⟩ | ⟨-, hheld, hnot⟩
    · exact Nat.le_refl _
    · by_contra hlt
      refine hnot ⟨rfl, (findAddressFromSymbol_iff_lowest hshown hearlier).2 ⟨hheld, ?_⟩⟩
      intro c hc
      by_contra hlow
      have heq := hone c other hc hheld (by omega) (by omega)
      omega

/-- **A removed symbol is gone** just where the table had the name at no two addresses. -/
theorem remove_found_iff :
    (∀ place, (s.remove table name).findAddressFromSymbol name ≠ some (place, table))
      ↔ ∀ a b, s.Holds table name a → s.Holds table name b → a = b := by
  have hdisplayed : (s.remove table name).displaySymbolTables = s.displaySymbolTables := by
    rw [remove_eq hlen]
    exact displaySymbolTables_eraseFound
  have hholds : ∀ other place, (s.remove table name).Holds other name place
      ↔ s.Holds other name place
        ∧ ¬ (other = table ∧ s.findAddressFromSymbol name = some (place, table)) := by
    intro other place
    rw [remove_eq hlen]
    exact holds_eraseFound
  have hlater : ∀ later, table < later → (s.remove table name).Displayed later →
      ∀ place, ¬ (s.remove table name).Holds later name place := by
    intro later hlt hd place hheld
    rw [Displayed, hdisplayed] at hd
    exact hearlier later hlt hd place ((hholds later place).1 hheld).1
  have hshown' : (s.remove table name).Displayed table := by
    rw [Displayed, hdisplayed]
    exact hshown
  simp only [ne_eq, findAddressFromSymbol_iff_lowest hshown' hlater]
  constructor
  · intro hgone
    -- the lowest address that is left would be found
    have hnone : ∀ place, ¬ (s.remove table name).Holds table name place := by
      intro place
      induction place using Nat.strong_induction_on with
      | _ place ih =>
        intro hheld
        refine hgone place ⟨hheld, fun other hother => ?_⟩
        by_contra hlt
        exact ih other (Nat.not_le.1 hlt) hother
    have hfound : ∀ c, s.Holds table name c → s.findAddressFromSymbol name = some (c, table) := by
      intro c hc
      by_contra hne
      exact hnone c ((hholds table c).2 ⟨hc, fun h => hne h.2⟩)
    intro a b ha hb
    exact (Prod.mk.inj (Option.some.inj ((hfound a ha).symm.trans (hfound b hb)))).1
  · rintro hone place ⟨hheld, -⟩
    obtain ⟨hheld, hnot⟩ := (hholds table place).1 hheld
    refine hnot ⟨rfl, (findAddressFromSymbol_iff_lowest hshown hearlier).2 ⟨hheld, ?_⟩⟩
    exact fun c hc => Nat.le_of_eq (hone place c hheld hc)

end Update

/-- Tables that hold a name at the same addresses find it alike. -/
theorem findAddressFromSymbol_of_holds {s' : Symbols}
    (hdisplayed : s'.displaySymbolTables = s.displaySymbolTables)
    (hholds : ∀ table place, s'.Holds table symbol place ↔ s.Holds table symbol place) :
    s'.findAddressFromSymbol symbol = s.findAddressFromSymbol symbol := by
  refine findAddressFromSymbol_congr hdisplayed fun table => Option.ext fun place => ?_
  rw [firstAddress_eq_some_iff, firstAddress_eq_some_iff]
  simp only [hholds]

/-- An address whose name goes does not hold another name. -/
theorem not_found_of_holds (hother : sameSymbol symbol name = false) {place : Nat}
    (hheld : s.Holds table symbol place) :
    s.findAddressFromSymbol name ≠ some (place, table) := by
  intro hfound
  obtain ⟨⟨found, hmem, hname⟩, -⟩ :=
    firstAddress_eq_some_iff.1 (findAddressFromSymbol_eq_some_iff.1 hfound).2.1
  obtain ⟨held, hmem', hsymbol⟩ := hheld
  have heq : held = found := SortedMap.value_unique hmem' hmem
  subst heq
  rw [sameSymbol_iff] at hname hsymbol
  have : sameSymbol symbol name = true := sameSymbol_iff.2 (hsymbol.symm.trans hname)
  rw [this] at hother
  exact Bool.false_ne_true hother.symm

/-- **Another name is found where it was**, but for one at the address that is defined. -/
theorem define_found_other (hlen : name.length < maxSymbolsLen)
    (hother : sameSymbol symbol name = false) (hfree : ¬ s.Holds table symbol address) :
    (s.define table name address).findAddressFromSymbol symbol = s.findAddressFromSymbol symbol := by
  refine findAddressFromSymbol_of_holds ?_ fun other place => ?_
  · rw [define_eq hlen]
    exact displaySymbolTables_eraseFound
  · rw [holds_define hlen]
    constructor
    · rintro (⟨-, -, hname⟩ | ⟨-, hheld, -⟩)
      · rw [sameSymbol_iff] at hname
        rw [sameSymbol_iff.2 hname.symm] at hother
        exact absurd hother.symm Bool.false_ne_true
      · exact hheld
    · intro hheld
      refine .inr ⟨?_, hheld, fun h => not_found_of_holds hother (h.1 ▸ hheld) h.2⟩
      rintro ⟨rfl, rfl⟩
      exact hfree hheld

theorem remove_found_other (hlen : name.length < maxSymbolsLen)
    (hother : sameSymbol symbol name = false) :
    (s.remove table name).findAddressFromSymbol symbol = s.findAddressFromSymbol symbol := by
  refine findAddressFromSymbol_of_holds ?_ fun other place => ?_
  · rw [remove_eq hlen]
    exact displaySymbolTables_eraseFound
  · rw [remove_eq hlen, holds_eraseFound]
    refine ⟨fun h => h.1, fun hheld => ⟨hheld, fun h => ?_⟩⟩
    exact not_found_of_holds hother (h.1 ▸ hheld) h.2

/-- **A name that is defined is found, and one that is removed is gone**, in any case of its
letters: the first just where the table had the name at no two addresses below the new one, the
second where it had it at no two addresses at all. No other name is found elsewhere than before,
unless it was held by the address that is defined. -/
theorem symbolUpdate_found (s : Symbols) (table : Fin 9) (name : List Char) (address : Nat)
    (hshown : s.Displayed table) (hlen : name.length < maxSymbolsLen)
    (hearlier : ∀ later, table < later → s.Displayed later →
      ∀ address, ¬ s.Holds later name address) :
    ((∀ spelled, sameSymbol spelled name = true →
        (s.define table name address).findAddressFromSymbol spelled = some (address, table))
      ↔ ∀ a b, s.Holds table name a → s.Holds table name b → a < address → b < address → a = b)
    ∧ ((∀ spelled, sameSymbol spelled name = true →
        ∀ place, (s.remove table name).findAddressFromSymbol spelled ≠ some (place, table))
      ↔ ∀ a b, s.Holds table name a → s.Holds table name b → a = b)
    ∧ ∀ other, sameSymbol other name = false →
      (s.remove table name).findAddressFromSymbol other = s.findAddressFromSymbol other
      ∧ (¬ s.Holds table other address →
        (s.define table name address).findAddressFromSymbol other
          = s.findAddressFromSymbol other) := by
  have hspelled : ∀ (s' : Symbols) spelled, sameSymbol spelled name = true →
      s'.findAddressFromSymbol spelled = s'.findAddressFromSymbol name := by
    intro s' spelled h
    unfold findAddressFromSymbol
    refine congrArg (fun f => List.findSome? f _) (funext fun t => ?_)
    rw [lookup_eq, lookup_eq, firstAddress_congr h]
  refine ⟨?_, ?_, fun other hother =>
    ⟨remove_found_other hlen hother, define_found_other hlen hother⟩⟩
  · rw [← define_found_iff hshown hlen hearlier]
    exact ⟨fun h => h name (sameSymbol_refl name), fun h spelled hs => (hspelled _ _ hs).trans h⟩
  · rw [← remove_found_iff hshown hlen hearlier]
    refine ⟨fun h => h name (sameSymbol_refl name), fun h spelled hs place => ?_⟩
    rw [hspelled _ _ hs]
    exact h place

/-- The user's table, with a name at two addresses. -/
def aliased : Symbols where
  tables := Function.update (fun _ => .empty) 3 ⟨[(1, ['A']), (2, ['a'])], by decide⟩
  displaySymbolTables := 8

/-- **Above both addresses the name is not found where it was defined**, and where the name is
removed it is still found: at the second address. -/
theorem not_symbolUpdate_found :
    (aliased.define 3 ['A'] 3).findAddressFromSymbol ['A'] = some (2, 3)
      ∧ (aliased.remove 3 ['A']).findAddressFromSymbol ['A'] = some (2, 3) := by
  decide +kernel

/-- **Between the two addresses the name is found.** -/
theorem symbolUpdate_found_between :
    (aliased.define 3 ['A'] 2).findAddressFromSymbol ['a'] = some (2, 3) := by
  refine (symbolUpdate_found aliased 3 ['A'] 2 (by decide) (by decide) ?_).1.2 ?_ ['a'] (by decide)
  · have hhidden : ∀ later, 3 < later → ¬ aliased.Displayed later := by decide
    exact fun later hlater hshown => absurd hshown (hhidden later hlater)
  · intro a b ha hb halt hblt
    have hone : ∀ c, aliased.Holds 3 ['A'] c → c < 2 → c = 1 := by
      rintro c ⟨name, hmem, -⟩ hlt
      have hmem' : (c, name) ∈ [(1, ['A']), (2, ['a'])] := hmem
      rcases List.mem_cons.1 hmem' with heq | hmem'
      · exact (Prod.mk.inj heq).1
      · have heq := (Prod.mk.inj (List.mem_singleton.1 hmem')).1
        omega
    exact (hone a ha halt).trans (hone b hb hblt).symm

end Symbols

end LinApple.Debugger
