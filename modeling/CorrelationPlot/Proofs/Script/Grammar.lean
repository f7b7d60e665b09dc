import CorrelationPlot.Proofs.Binary64
import CorrelationPlot.Proofs.Literal
import CorrelationPlot.Script.Whole

/-!
The grammar of chart scripts and what they denote, apart from any reader. A phrase relates a text, a
value that some beginning of it denotes, and the text behind that beginning.
-/
namespace CorrelationPlot.Script.Grammar

abbrev Phrase (α : Type) := List Char → α → List Char → Prop

def Blanks (cs : List Char) : Prop := ∀ c ∈ cs, c = ' ' ∨ c = '\t' ∨ c = '\r' ∨ c = '\n'

/-- A token may have blanks on both sides. -/
def Token (language : List Char → α → Prop) : Phrase α := fun cs a rest =>
  ∃ before token behind, Blanks before ∧ language token a ∧ Blanks behind ∧
    cs = before ++ (token ++ (behind ++ rest))

/-- Elements with separators between. -/
inductive Separated (separator : Phrase Unit) (element : Phrase α) : Phrase (List α)
  | one {cs rest : List Char} {a : α} : element cs a rest → Separated separator element cs [a] rest
  | more {cs behind next rest : List Char} {a : α} {as : List α} :
      element cs a behind → separator behind () next → Separated separator element next as rest →
      Separated separator element cs (a :: as) rest

/-- What the last of the elements that are `carry v` for some `v` carries. -/
def Last (carry : γ → β) (list : List β) : Option γ → Prop
  | some v => ∃ before behind, list = before ++ carry v :: behind ∧ ∀ w, carry w ∉ behind
  | none => ∀ w, carry w ∉ list

def WordText (w : String) (token : List Char) (_ : Unit) : Prop := token = w.toList

abbrev Word (w : String) : Phrase Unit := Token (WordText w)

/-- Any characters but the double quote, between double quotes. -/
def StringText (token : List Char) (s : String) : Prop :=
  '"' ∉ s.toList ∧ token = '"' :: (s.toList ++ ['"'])

def IdentifierText (token : List Char) (s : String) : Prop :=
  token = s.toList ∧ ∃ first more, token = first :: more ∧
    (first.isAlpha = true ∨ first = '_') ∧
    ∀ c ∈ more, c.isAlphanum = true ∨ c = '_' ∨ c = '.'

def FieldText (token : List Char) (s : String) : Prop :=
  StringText token s ∨ IdentifierText token s

/-- A decimal literal with an optional sign, or the words `nan` and `inf` in any case. -/
inductive NumberText : List Char → Float → Prop
  | literal {sign digits : List Char} {negative : Bool} {l : Literal} :
      Literal.SignText sign negative → Literal.LiteralText digits l →
      NumberText (sign ++ digits) (l.toFloat negative)
  | nan {token : List Char} : token.map Char.toLower = "nan".toList → NumberText token Binary64.nan
  | infinity {token : List Char} : token.map Char.toLower = "inf".toList →
      NumberText token (Binary64.infinity false)

/-- A name with its colon, then a value. -/
def Argument (key : κ) (name : String) (language : List Char → String → Prop) :
    Phrase (κ × String) := fun cs a rest =>
  a.1 = key ∧ ∃ behind, Word name cs () behind ∧ Token language behind a.2 rest

def ChartArgument : Phrase (ChartKey × String) := fun cs a rest =>
  Argument .x "x:" FieldText cs a rest ∨ Argument .y "y:" FieldText cs a rest ∨
    Argument .display "display:" StringText cs a rest

def AppearanceArgument : Phrase (AppearanceKey × String) := fun cs a rest =>
  Argument .background "background:" StringText cs a rest ∨
    Argument .text "text:" StringText cs a rest

/-- Any number of arguments, in parentheses and with commas between. -/
def Arguments (argument : Phrase α) : Phrase (List α) := fun cs as rest =>
  ∃ inner behind, Word "(" cs () inner ∧
    (Separated (Word ",") argument inner as behind ∨ as = [] ∧ behind = inner) ∧
    Word ")" behind () rest

/-- A whole number from one on; those above 64 bits count as the greatest one of 64 bits. -/
def Columns (v : Float) (columns : UInt64) : Prop :=
  Binary64.isFinite v = true ∧ ∃ n : ℕ, Binary64.value v = n ∧ 1 ≤ n ∧
    columns = UInt64.ofNat (min n (2 ^ 64 - 1))

/-- The whole part of a number between one and the greatest number of 32 bits. -/
def Pixels (v : Float) (pixels : UInt32) : Prop :=
  Binary64.isFinite v = true ∧ 1 ≤ Binary64.value v ∧ Binary64.value v ≤ 4294967295 ∧
    pixels = UInt32.ofNat ⌊Binary64.value v⌋.toNat

/-- The last argument with each name counts. There has to be an x and a y. -/
structure ChartOf (arguments : List (ChartKey × String)) (part : ChartPart) : Prop where
  x : Last (fun v => (ChartKey.x, v)) arguments (some part.x)
  y : Last (fun v => (ChartKey.y, v)) arguments (some part.y)
  display : Last (fun v => (ChartKey.display, v)) arguments part.display

structure AppearanceOf (arguments : List (AppearanceKey × String)) (part : AppearancePart) :
    Prop where
  background : Last (fun v => (AppearanceKey.background, v)) arguments part.background
  text : Last (fun v => (AppearanceKey.text, v)) arguments part.text

inductive ComponentText : Phrase Component
  | chart {cs behind rest : List Char} {arguments : List (ChartKey × String)} {part : ChartPart} :
      Word "correlation" cs () behind → Arguments ChartArgument behind arguments rest →
      ChartOf arguments part → ComponentText cs (.chart part) rest
  | appearance {cs behind rest : List Char} {arguments : List (AppearanceKey × String)}
      {part : AppearancePart} :
      Word "appearance" cs () behind → Arguments AppearanceArgument behind arguments rest →
      AppearanceOf arguments part → ComponentText cs (.appearance part) rest
  | grid {cs a b c d rest : List Char} {v : Float} {columns : UInt64} :
      Word "grid" cs () a → Word "(" a () b → Word "columns:" b () c → Token NumberText c v d →
      Word ")" d () rest → Columns v columns → ComponentText cs (.grid columns) rest
  | size {cs a b c d e f g rest : List Char} {v w : Float} {width height : UInt32} :
      Word "size" cs () a → Word "(" a () b → Word "width:" b () c → Token NumberText c v d →
      Word "," d () e → Word "height:" e () f → Token NumberText f w g → Word ")" g () rest →
      Pixels v width → Pixels w height → ComponentText cs (.size width height) rest

/-- The last component of each kind counts. There has to be a chart. -/
structure ScriptOf (components : List Component) (script : Script) : Prop where
  chart : Last Component.chart components (some script.chart)
  appearance : Last Component.appearance components script.appearance
  columns : Last Component.grid components script.columns
  size : Last (fun s => Component.size s.1 s.2) components script.size

/-- Components with bars between them, up to the end of the text. -/
def ScriptText (cs : List Char) (script : Script) : Prop :=
  ∃ components rest, Separated (Word "|") ComponentText cs components rest ∧ Blanks rest ∧
    ScriptOf components script

theorem Separated.forall_mem {separator : Phrase Unit} {element : Phrase α}
    {P : α → Prop} (each : ∀ {cs a rest}, element cs a rest → P a) {cs rest : List Char}
    {as : List α} (h : Separated separator element cs as rest) : ∀ a ∈ as, P a := by
  induction h with
  | one first => exact List.forall_mem_singleton.mpr (each first)
  | more first _ _ ih => exact List.forall_mem_cons.mpr ⟨each first, ih⟩

theorem ComponentText.ne_grid_zero {cs rest : List Char} {c : Component}
    (h : ComponentText cs c rest) : c ≠ .grid 0 := by
  rintro rfl
  cases h with
  | grid _ _ _ _ _ columns =>
      obtain ⟨-, n, -, positive, zero⟩ := columns
      have none : (UInt64.ofNat (min n (2 ^ 64 - 1))).toNat = 0 := congrArg UInt64.toNat zero.symm
      rw [UInt64.toNat_ofNat_of_lt' (by simp [UInt64.size])] at none
      omega

/-- No script asks for a grid without columns. -/
theorem ScriptText.columns_ne_zero {cs : List Char} {script : Script}
    (h : ScriptText cs script) : script.columns ≠ some 0 := by
  obtain ⟨components, rest, list, -, denoted⟩ := h
  intro zero
  have last := denoted.columns
  rw [zero] at last
  obtain ⟨before, behind, rfl, -⟩ := last
  exact list.forall_mem (P := (· ≠ .grid 0)) ComponentText.ne_grid_zero _ (by simp) rfl

end CorrelationPlot.Script.Grammar
