import F4MP.Library.Trim
import F4MP.PrologueSkipModel
import F4MP.ServerConsole

/-!
The INI reader both programs read their settings with: `[Section]` headers, `Key=Value`
lines and comments.  A file is the characters its stream yields.
-/

namespace F4MP.IniModel

open F4MP.Types
open F4MP.Arith
open F4MP.PrologueSkipModel
open F4MP.ServerConsole
open F4MP.Library.HashTable

def trim (s : Bytes) : Bytes := (s.dropWhile isSpace).rdropWhile isSpace

def lower (s : Bytes) : Bytes := s.map toLower

/-- The lines `std::getline` reads, the last one without a line feed unless it is empty. -/
def lines (file : Bytes) : List Bytes :=
  let parts := file.splitOn 0x0A
  if parts.getLast? = some [] then parts.dropLast else parts

structure Ini where
  values : UnorderedMap Bytes Bytes := ∅

/-- What `Load` keeps from line to line. -/
structure Loading where
  sectionName : Bytes := []
  values : UnorderedMap Bytes Bytes := ∅

def loadLine (loading : Loading) (line : Bytes) : Loading :=
  let view := trim line
  if view = [] ∨ view.head? = some 0x3B ∨ view.head? = some 0x23 then loading
  else if view.head? = some 0x5B ∧ view.getLast? = some 0x5D then
    { loading with sectionName := lower ((view.drop 1).take (view.length - 2)) }
  else
    match view.idxOf? 0x3D with
    | none => loading
    | some eq =>
        let key := lower (trim (view.take eq))
        let value := trim (view.drop (eq + 1))
        { loading with
          values := loading.values.insert (loading.sectionName ++ ascii "/" ++ key) value }

/-- `Load` of a file that can be opened. -/
def load (file : Bytes) : Ini :=
  { values := ((lines file).foldl loadLine {}).values }

namespace Ini

def get (ini : Ini) (sectionName key fallback : Bytes) : Bytes :=
  (ini.values.lookup (lower sectionName ++ ascii "/" ++ lower key)).getD fallback

end Ini

/-- A value about to be parsed, without an inline comment. -/
def numeric (s : Bytes) : Bytes :=
  match s.findIdx? fun c => c == 0x3B || c == 0x23 with
  | some comment => trim (s.take comment)
  | none => trim s

/-- `std::from_chars` into a `long long`: the number at the front, unless it is out of
range, and what follows it. -/
def fromCharsInt (s : Bytes) : Option (Int × Bytes) :=
  let (negative, rest) :=
    match s with
    | 0x2D :: rest => (true, rest)
    | rest => (false, rest)
  let digits := rest.takeWhile isDigit
  let value : Int := if negative then -digitsValue digits else digitsValue digits
  if digits.isEmpty || value < -2 ^ 63 || 2 ^ 63 ≤ value then none
  else some (value, rest.drop digits.length)

/-- `std::from_chars` into a `double`, in the same way. -/
class FromCharsDouble (D : Type) where
  fromChars : Bytes → Option (D × Bytes)

namespace Ini

def getInt (ini : Ini) (sectionName key : Bytes) (fallback : Int) : Int :=
  match fromCharsInt (numeric (ini.get sectionName key [])) with
  | some (v, []) => v
  | _ => fallback

def getFloat {D : Type} [FromCharsDouble D] (ini : Ini) (sectionName key : Bytes)
    (fallback : D) : D :=
  match FromCharsDouble.fromChars (numeric (ini.get sectionName key [])) with
  | some (v, []) => v
  | _ => fallback

def getBool (ini : Ini) (sectionName key : Bytes) (fallback : Bool) : Bool :=
  let s := lower (numeric (ini.get sectionName key []))
  if s = ascii "1" ∨ s = ascii "true" ∨ s = ascii "yes" ∨ s = ascii "on" then true
  else if s = ascii "0" ∨ s = ascii "false" ∨ s = ascii "no" ∨ s = ascii "off" then false
  else fallback

end Ini

/-- `std::clamp` of a `long long`. -/
def clampInt (v lo hi : Int) : Int := if v < lo then lo else if hi < v then hi else v

theorem clampInt_bounds {lo hi : Int} (hbounds : lo ≤ hi) (v : Int) :
    lo ≤ clampInt v lo hi ∧ clampInt v lo hi ≤ hi := by
  rw [clampInt]
  split
  · exact ⟨le_rfl, hbounds⟩
  · split <;> omega

theorem trim_eq (s : Bytes) : trim s = Library.Trim.trim isSpace s := by
  have hpad : ∀ c ∈ s.takeWhile isSpace, isSpace c = true := fun c hc => List.mem_takeWhile_imp hc
  conv_rhs => rw [← List.takeWhile_append_dropWhile (p := isSpace) (l := s)]
  rw [Library.Trim.trim_append_left hpad, trim, Library.Trim.trim, eq_comm,
    List.dropWhile_eq_self_iff]
  intro hpos
  have hfront : (s.dropWhile isSpace).rdropWhile isSpace <+: s.dropWhile isSpace :=
    List.rdropWhile_prefix _ _
  rw [hfront.getElem hpos]
  exact List.dropWhile_get_zero_not isSpace s (hpos.trans_le hfront.length_le)

end F4MP.IniModel
