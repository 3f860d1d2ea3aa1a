/-
`air/columns.rs`: the column layout of the AIR trace and the index functions over it. The
constants keep the source's formulas; each `_eq` lemma is the number it comes to.
-/
import Sha512Circuit.Ops

namespace Sha512Circuit

/-! ## Dimensions and word ids -/

/-- `TRACE_ROWS`. -/
def traceRows : ℕ := 128
/-- `SHA_ROUNDS_PLUS_INIT`. -/
def shaRoundsPlusInit : ℕ := 81

def wordA : ℕ := 0
def wordB : ℕ := 1
def wordC : ℕ := 2
def wordD : ℕ := 3
def wordE : ℕ := 4
def wordF : ℕ := 5
def wordG : ℕ := 6
def wordH : ℕ := 7
def wordW : ℕ := 8
def wordK : ℕ := 9
def wordSigma0 : ℕ := 10
def wordSigma1 : ℕ := 11
def wordCh : ℕ := 12
def wordMaj : ℕ := 13
def wordT1 : ℕ := 14
def wordT2 : ℕ := 15
/-- `WORD_COUNT`. -/
def wordCount : ℕ := 16

/-- `LIMBS_PER_WORD`. -/
def limbsPerWord : ℕ := 4
/-- `LAG_COUNT`. -/
def lagCount : ℕ := 16

/-! ## Column bases -/

def limbBase : ℕ := 0
def carryT1Base : ℕ := wordCount * limbsPerWord
def carryT2Base : ℕ := carryT1Base + limbsPerWord
def carryABase : ℕ := carryT2Base + limbsPerWord
def carryEBase : ℕ := carryABase + limbsPerWord
def lagLimbBase : ℕ := carryEBase + limbsPerWord
def schedCarryBase : ℕ := lagLimbBase + lagCount * limbsPerWord
def bitABase : ℕ := schedCarryBase + limbsPerWord
def bitBBase : ℕ := bitABase + 64
def bitCBase : ℕ := bitBBase + 64
def bitEBase : ℕ := bitCBase + 64
def bitFBase : ℕ := bitEBase + 64
def bitGBase : ℕ := bitFBase + 64

/-- `RANGED_WORDS`: the words range-proved by generic 16-bit decompositions. -/
def rangedWords : List ℕ := [wordD, wordH, wordW, wordK, wordT1, wordT2]
def rangedWordSources : ℕ := rangedWords.length * limbsPerWord
def rangeSources : ℕ := rangedWordSources
def rangeBitsPerSource : ℕ := 16

def lag1BitBase : ℕ := bitGBase + 64
def lag14BitBase : ℕ := lag1BitBase + 64
def rangeBitBase : ℕ := lag14BitBase + 64
def carryBitBase : ℕ := rangeBitBase + rangeSources * rangeBitsPerSource
def carryT1BitBase : ℕ := carryBitBase
def carryT2BitBase : ℕ := carryT1BitBase + limbsPerWord * 3
def carryABitBase : ℕ := carryT2BitBase + limbsPerWord
def carryEBitBase : ℕ := carryABitBase + limbsPerWord
def carrySchedBitBase : ℕ := carryEBitBase + limbsPerWord

/-- `AIR_WIDTH`. -/
def airWidth : ℕ := carrySchedBitBase + limbsPerWord * 2

def prepBlockStartSelectorCol : ℕ := airWidth - 5
def prepTransitionSelectorCol : ℕ := airWidth - 4
def prepRoundSelectorCol : ℕ := airWidth - 3
def prepInitWSelectorCol : ℕ := airWidth - 2
def prepFinalSelectorCol : ℕ := airWidth - 1

/-! ## Index functions -/

/-- `limb_col`. -/
def limbCol (word limb : ℕ) : ℕ := limbBase + word * limbsPerWord + limb

/-- `lag_limb_col`. -/
def lagLimbCol (lag limb : ℕ) : ℕ := lagLimbBase + lag * limbsPerWord + limb

/-- `range_source_col`; the source's other branch is unreachable. -/
def rangeSourceCol (source : ℕ) : ℕ :=
  if source < rangedWordSources then
    limbCol (rangedWords.getD (source / limbsPerWord) 0) (source % limbsPerWord)
  else 0

/-- `range_bit_col`. -/
def rangeBitCol (source bit : ℕ) : ℕ := rangeBitBase + source * rangeBitsPerSource + bit

/-- `carry_bit_width`; the source's last branch is unreachable. -/
def carryBitWidth (carryCol : ℕ) : ℕ :=
  if carryT1Base ≤ carryCol ∧ carryCol < carryT2Base then 3
  else if carryT2Base ≤ carryCol ∧ carryCol < lagLimbBase then 1
  else if schedCarryBase ≤ carryCol ∧ carryCol < bitABase then 2
  else 0

/-- `carry_bit_col`; the source's last branch is unreachable. -/
def carryBitCol (carryCol bit : ℕ) : ℕ :=
  if carryT1Base ≤ carryCol ∧ carryCol < carryT2Base then carryT1BitBase + (carryCol - carryT1Base) * 3 + bit
  else if carryT2Base ≤ carryCol ∧ carryCol < carryABase then carryT2BitBase + (carryCol - carryT2Base) + bit
  else if carryABase ≤ carryCol ∧ carryCol < carryEBase then carryABitBase + (carryCol - carryABase) + bit
  else if carryEBase ≤ carryCol ∧ carryCol < lagLimbBase then carryEBitBase + (carryCol - carryEBase) + bit
  else if schedCarryBase ≤ carryCol ∧ carryCol < bitABase then
    carrySchedBitBase + (carryCol - schedCarryBase) * 2 + bit
  else 0

/-! ## The numbers -/

@[simp] theorem limbsPerWord_eq : limbsPerWord = 4 := rfl
@[simp] theorem traceRows_eq : traceRows = 128 := rfl
@[simp] theorem lagCount_eq : lagCount = 16 := rfl
@[simp] theorem carryT1Base_eq : carryT1Base = 64 := rfl
@[simp] theorem carryT2Base_eq : carryT2Base = 68 := rfl
@[simp] theorem carryABase_eq : carryABase = 72 := rfl
@[simp] theorem carryEBase_eq : carryEBase = 76 := rfl
@[simp] theorem lagLimbBase_eq : lagLimbBase = 80 := rfl
@[simp] theorem schedCarryBase_eq : schedCarryBase = 144 := rfl
@[simp] theorem bitABase_eq : bitABase = 148 := rfl
@[simp] theorem bitBBase_eq : bitBBase = 212 := rfl
@[simp] theorem bitCBase_eq : bitCBase = 276 := rfl
@[simp] theorem bitEBase_eq : bitEBase = 340 := rfl
@[simp] theorem bitFBase_eq : bitFBase = 404 := rfl
@[simp] theorem bitGBase_eq : bitGBase = 468 := rfl
@[simp] theorem rangeSources_eq : rangeSources = 24 := rfl
@[simp] theorem rangeBitsPerSource_eq : rangeBitsPerSource = 16 := rfl
@[simp] theorem lag1BitBase_eq : lag1BitBase = 532 := rfl
@[simp] theorem lag14BitBase_eq : lag14BitBase = 596 := rfl
theorem airWidth_eq : airWidth = 1076 := rfl
@[simp] theorem prepBlockStartSelectorCol_eq : prepBlockStartSelectorCol = 1071 := rfl
@[simp] theorem prepTransitionSelectorCol_eq : prepTransitionSelectorCol = 1072 := rfl
@[simp] theorem prepRoundSelectorCol_eq : prepRoundSelectorCol = 1073 := rfl
@[simp] theorem prepInitWSelectorCol_eq : prepInitWSelectorCol = 1074 := rfl
@[simp] theorem prepFinalSelectorCol_eq : prepFinalSelectorCol = 1075 := rfl

theorem limbCol_eq (word limb : ℕ) : limbCol word limb = word * 4 + limb := by
  simp [limbCol, limbBase]

theorem lagLimbCol_eq (lag limb : ℕ) : lagLimbCol lag limb = 80 + lag * 4 + limb := by
  simp [lagLimbCol]

theorem rangeBitCol_eq (source bit : ℕ) : rangeBitCol source bit = 660 + source * 16 + bit := rfl

end Sha512Circuit
