import CiPipeline.Build
import CiPipeline.Proofs.Act
import CiPipeline.Proofs.FileTree
import CiPipeline.Proofs.Path

/-
The directories of a build: what comes of making one, and that making the build directory does not
change whether the sources have their configuration script (`hasScript_withDirectory`).
-/

namespace CiPipeline

/-- The host with another tree of files. -/
def Host.holding (h : Host) (files : FileTree) : Host := { h with files := files }

/-! ## The sources -/

theorem Host.expandValue_eq_ok {h : Host} {v : Value} {p : Path} (hv : h.expandValue v = .ok p) :
    ∃ q, p = h.here.resolve q := by
  unfold expandValue at hv
  split at hv
  · unfold expand resolve at hv
    repeat' split at hv
    all_goals cases hv
    exact ⟨_, rfl⟩
  · cases hv

/-- The sources of a configuration that was made are at a path without dots. -/
theorem BuildRequest.up_not_mem_source {r : BuildRequest} {h : Host} {c : BuildConfig} (hc : r.config h = .ok c) :
    ".." ∉ c.source.parts := by
  obtain ⟨kind, -, hc⟩ := exists_of_bind_eq_ok hc
  obtain ⟨jobs, -, hc⟩ := exists_of_bind_eq_ok hc
  obtain ⟨source, hsource, hc⟩ := exists_of_bind_eq_ok hc
  obtain ⟨build, -, hc⟩ := exists_of_bind_eq_ok hc
  cases hc
  obtain ⟨q, rfl⟩ := Host.expandValue_eq_ok hsource
  exact Path.up_not_mem_resolve _ _

namespace Build

variable {c : BuildConfig} {h : Host} {p : Path} {files : FileTree} {e : OsError}

theorem on_makeDirectory (hmade : h.files.makeDirectory p.parts = .ok files) :
    (makeDirectory p).on h = (.ok (), h.holding files) := by
  rw [makeDirectory, Act.on_bind_ok (Act.on_get h), hmade]
  rfl

theorem on_makeDirectory_error (hno : h.files.makeDirectory p.parts = .error e) :
    (makeDirectory p).on h = (.error (.os e p.text), h) := by
  rw [makeDirectory, Act.on_bind_ok (Act.on_get h), hno]
  rfl

/-- The host with the build directory, if that can be made. -/
def withDirectory (c : BuildConfig) (h : Host) : Host :=
  match h.files.makeDirectory c.build.parts with
  | .ok files => h.holding files
  | .error _ => h

theorem withDirectory_eq (hmade : h.files.makeDirectory c.build.parts = .ok files) :
    withDirectory c h = h.holding files := by
  rw [withDirectory, hmade]

theorem parts_configureScript (c : BuildConfig) :
    (configureScript c).parts = c.source.parts ++ ["cmake", "gen_cmake_config.py"] := by
  have hcmake : Path.parse "cmake" = ⟨0, ["cmake"]⟩ := by decide
  have hscript : Path.parse "gen_cmake_config.py" = ⟨0, ["gen_cmake_config.py"]⟩ := by decide
  rw [configureScript, Path.child, Path.child, hcmake, hscript]
  simp [Path.join]

/-- Making the build directory does not change whether the configuration script is there. -/
theorem hasScript_withDirectory {r : BuildRequest} {k : Host} (hc : r.config k = .ok c) (htree : h.files.IsTree) :
    (withDirectory c h).hasFile (configureScript c) = h.hasFile (configureScript c) := by
  have hdown : ".." ∉ (configureScript c).parts := by
    rw [parts_configureScript, List.mem_append, not_or]
    exact ⟨BuildRequest.up_not_mem_source hc, by decide⟩
  unfold withDirectory
  split
  case h_1 files hmade => exact (FileTree.widens_makeDirectory hmade).hasFile_eq htree h.here _ hdown
  case h_2 => rfl

end Build

end CiPipeline
