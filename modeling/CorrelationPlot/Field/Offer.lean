import CorrelationPlot.Field.Selector
import CorrelationPlot.Series.Table

/-!
The fields on offer, how the offer changes, and how a selection follows the change.
-/
namespace CorrelationPlot

abbrev Offer := List Selector

namespace Offer

/-- The columns of a table, numeric where their cells are. -/
def ofTable (t : Table) : Offer :=
  t.headers.mapIdx fun i name => Selector.named name (t.isNumeric i)

def ofTables (tables : List Table) : Offer := (tables.head?.map ofTable).getD []

def numeric (o : Offer) : List Selector := o.filter (·.isNumeric)

def nonNumeric (o : Offer) : List Selector := o.filter (!·.isNumeric)

def names (o : Offer) : List String := o.map (·.fullName)

/-- The first field with this full name, or else the first with this runtime name. -/
def lookUp? (o : Offer) (name : String) : Option Selector :=
  (o.find? fun f => f.fullName = name).or (o.find? fun f => f.runtimeName = name)

def offers (o : Offer) (f : Selector) : Bool := o.any (·.same f)

def add (o : Offer) (f : Selector) : Offer := if o.offers f then o else o ++ [f]

def remove (o : Offer) (removed : List Selector) : Offer := o.filter fun f => !offers removed f

/-- Drops the removed fields, then appends the added ones that are not there yet. -/
def change (o : Offer) (added removed : List Selector) : Offer :=
  added.foldl add (o.remove removed)

end Offer

/-- The selection after a change of the offer. A selection that was removed, or never made, becomes
the first acceptable field among the available and then the added ones that is not removed. -/
def substitute (selected : Option Selector) (available added removed : List Selector)
    (accept : Selector → Bool) : Option Selector :=
  match selected with
  | some f => if Offer.offers removed f then candidate else some f
  | none => candidate
where
  candidate : Option Selector := List.find? accept (Offer.remove (available ++ added) removed)

end CorrelationPlot
