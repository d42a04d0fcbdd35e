import Libtvnet.Log

/-!
# `loop.c`, the log files

The log server has a file for each class of severities and day.  The class is
the index of two arrays; `none` stands for an index outside of them.
-/

namespace Libtvnet

def ascii (text : List Char) : List UInt8 := text.map Char.toUInt8

structure Logfiles where
  logfileDate : Vector (List UInt8) 4
  logfileFd : Vector Int 4

/-- The elements without an initializer are zero; their index 3 is no file type. -/
def Logfiles.start : Logfiles := ⟨⟨#[[], [], [], []], rfl⟩, ⟨#[-1, -1, -1, 0], rfl⟩⟩

inductive FileCall where
  | close (fd : Int)
  | openFile (filename : List UInt8)

/-- `ret` is none where the program calls `abort`. -/
structure LogfileRun where
  ret : Option Int
  files : Logfiles
  calls : List FileCall

def logfileType (severity : TvnlSeverity) : Nat × List UInt8 :=
  match severity.toNat with
  | 0 | 1 | 2 => (0, ascii ['e', 'r', 'r', 'o', 'r'])
  | 3 => (1, ascii ['a', 'u', 'd', 'i', 't'])
  | 4 | 5 => (2, ascii ['d', 'e', 'b', 'u', 'g'])
  | _ => (4, ascii ['u', 'n', 'k', 'n', 'o', 'w', 'n'])

/-- The date of the file is compared and not stored. -/
def openLogfile (tvuFmtShortdate : Int64 → List UInt8) (optionLogdir : List UInt8)
    (openFile : List UInt8 → Int) (files : Logfiles) (timestamp : Int64)
    (severity : TvnlSeverity) : Option LogfileRun := do
  let dateS := tvuFmtShortdate timestamp
  let (fileType, fileTypeS) := logfileType severity
  let date ← files.logfileDate[fileType]?
  let fd ← files.logfileFd[fileType]?
  if date = dateS then some ⟨some fd, files, []⟩
  else
    let closed := if fd = -1 then [] else [FileCall.close fd]
    let filename := optionLogdir ++ ascii ['/'] ++ fileTypeS ++ ascii ['-'] ++ dateS ++
      ascii ['.', 'l', 'o', 'g']
    let opened := openFile filename
    let files := { files with logfileFd := files.logfileFd.setIfInBounds fileType opened }
    if opened = -1 then some ⟨none, files, closed ++ [.openFile filename]⟩
    else some ⟨some opened, files, closed ++ [.openFile filename]⟩

theorem logfileType_lt_iff (severity : TvnlSeverity) :
    (logfileType severity).1 < 4 ↔ severity.toNat ≤ 5 := by
  unfold logfileType
  split
  all_goals simp only [Nat.reduceLT, true_iff, false_iff, lt_self_iff_false, imp_false] at *
  all_goals omega

theorem openLogfile_isSome_iff (tvuFmtShortdate : Int64 → List UInt8) (optionLogdir : List UInt8)
    (openFile : List UInt8 → Int) (files : Logfiles) (timestamp : Int64)
    (severity : TvnlSeverity) :
    (openLogfile tvuFmtShortdate optionLogdir openFile files timestamp severity).isSome = true ↔
      severity.toNat ≤ 5 := by
  rw [← logfileType_lt_iff]
  by_cases hindex : (logfileType severity).1 < 4
  · simp only [hindex, iff_true]
    simp only [openLogfile, Vector.getElem?_eq_getElem hindex, Option.bind_eq_bind,
      Option.bind_some]
    split_ifs <;> rfl
  · simp only [hindex, iff_false]
    simp [openLogfile, Vector.getElem?_eq_none (Nat.le_of_not_lt hindex)]

end Libtvnet
