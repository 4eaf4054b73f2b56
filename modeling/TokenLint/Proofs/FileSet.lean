import TokenLint.FileSet

/-!
# File sets that can be built

A file set starts empty. Files are added, and a file can be given other tokens. Whatever is done
in this way, a file carries the digest of the source that it has now.
-/

namespace TokenLint.FileSet

theorem getElem?_replace (fs : FileSet) (id : UInt32) (tokens : Stream) (i : Nat) :
    (fs.replace id tokens).files[i]? = fs.files[i]?.map fun f =>
      if id.toNat = i then
        { f with
          tokens := tokens
          hash := Digest.sha256 tokens.source
          flags := { f.flags with modified := true } }
      else f := by
  simp only [FileSet.replace, Array.getElem?_modify]
  split <;> simp

/-- The file sets that come about by adding files and by giving them other tokens. -/
inductive Built : FileSet → Prop
  | empty (baseDir workDir : Text) : Built { baseDir := baseDir, workDir := workDir }
  | add {fs : FileSet} (h : Built fs) (path origin : Text) (tokens : Stream) (flags : FileFlags) :
      Built (fs.add path origin tokens flags)
  | replace {fs : FileSet} (h : Built fs) (id : UInt32) (tokens : Stream) :
      Built (fs.replace id tokens)
  | rebase {fs : FileSet} (h : Built fs) (baseDir : Text) : Built { fs with baseDir := baseDir }

theorem Built.hash_eq {fs : FileSet} (h : Built fs) {f : SourceFile} (hf : f ∈ fs.files) :
    f.hash = Digest.sha256 f.tokens.source := by
  induction h generalizing f with
  | empty baseDir workDir => simp at hf
  | add h path origin tokens flags ih =>
      rcases Array.mem_push.mp hf with hOld | rfl
      · exact ih hOld
      · rfl
  | @replace fs h id tokens ih =>
      obtain ⟨i, hi, hGet⟩ := Array.mem_iff_getElem.mp hf
      simp only [FileSet.replace, Array.getElem_modify] at hGet
      split at hGet
      · rw [← hGet]
      · rw [← hGet]
        exact ih (Array.getElem_mem _)
  | rebase h baseDir ih => exact ih hf

end TokenLint.FileSet
