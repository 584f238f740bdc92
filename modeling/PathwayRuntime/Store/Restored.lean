import PathwayRuntime.Store.Backups

/-!
# What a restore brings back

* `durable_backupSqliteSet`, `durable_restoreSqliteBackup`: what each leaves wherever it is cut short.
* `Plain`: no manifest, and no temporary file of a restore.
* **`file_intact`**: no file is lost or torn.
* **`restored_content`**: a restore brings back what the databases held when they were backed up.
-/

set_option autoImplicit false

namespace Rpr

open Resume

/-! ## Paths -/

theorem PyText.codes_append (s t : PyText) : (s ++ t).codes = s.codes ++ t.codes := by
  have hlone : ∀ codes : List ℕ, (∃ c ∈ codes, PyText.isSurrogate c) → (PyText.ofCodes codes).codes = codes := by
    intro codes h
    rw [PyText.ofCodes, dif_pos h]
    rfl
  change (PyText.append s t).codes = _
  cases s with
  | utf8 s =>
    cases t with
    | utf8 t => simp [PyText.append, PyText.codes]
    | lone codes h =>
      obtain ⟨c, hc, hsurrogate⟩ := h
      exact hlone _ ⟨c, List.mem_append_right _ hc, hsurrogate⟩
  | lone codes h =>
    obtain ⟨c, hc, hsurrogate⟩ := h
    cases t <;> exact hlone _ ⟨c, List.mem_append_left _ hc, hsurrogate⟩

/-- A temporary file stands under a longer name. -/
theorem temporaryOf_ne {target temporary : PyPath} (h : temporaryOf target = .ok temporary) : temporary ≠ target := by
  unfold temporaryOf at h
  split at h
  · cases h
  · rename_i name hname
    rintro rfl
    obtain ⟨parts, rfl⟩ := List.getLast?_eq_some_iff.mp hname
    rw [List.dropLast_concat] at h
    have hname := List.singleton_inj.mp (List.append_inj_right' (Except.ok.inj h) rfl)
    have hlength := congrArg (fun name => (PyText.codes name).length) hname
    simp only [PyText.codes_append, List.length_append] at hlength
    have hdot : (PyText.utf8 ".").codes.length = 1 := rfl
    omega

section Programs

open FileSystem

variable {lib : SqliteLibrary} {P : FileSystem → Prop} {w : FileSystem}

/-! ## A set of backups -/

/-- Every file that stands and is no manifest is as it was. -/
def KeepsBackups (lib : SqliteLibrary) (w w' : FileSystem) : Prop :=
  ∀ q, (∀ target, q ≠ manifestPath target) → w.data q ≠ none → Same lib q w w'

/-- The manifest of a set was written after its backups. -/
def Saved (lib : SqliteLibrary) (databases : List (PyText × PyText)) (destination : PyText) (m : BackupManifest)
    (w : FileSystem) : Prop :=
  ∃ target w₁, lib.resolve destination = .ok target ∧
    List.Forall₂ (BackedBy lib target w₁) databases m.artifacts ∧ SameBut lib (manifestPath target) w₁ w ∧
    w.data (manifestPath target) = some m.text

theorem durable_mkdir {α : Type} {Q : Except PyException α → FileSystem → Prop} {p : PyPath} {f : Unit → Files α}
    (hP : P w) (hok : ∀ w', (∀ q, Same lib q w w') → (fileSystem lib).Durable P Q (f ()) w')
    (herr : ∀ e w', (∀ q, Same lib q w w') → Q (.error e) w') :
    (fileSystem lib).Durable P Q (file (.mkdir p) >>= f) w := by
  have hsame : ∀ {o : FileAnswer} {x : Except PyException Unit} {w' : FileSystem},
      FileOp.exec lib (.mkdir p) o w = (x, w') → ∀ q, Same lib q w w' := by
    intro o x w' h q
    by_cases hfault : o.fault.isSome = true
    · rw [show FileOp.exec lib (.mkdir p) o w = _ from if_pos hfault] at h
      rw [← (Prod.mk.inj h).2]
      exact .of_eq data_withDirectories rfl
    · rw [show FileOp.exec lib (.mkdir p) o w = _ from if_neg hfault] at h
      cases x with
      | error e =>
        rw [FileAnswer.commit_error h]
        exact .refl
      | ok u => exact same_mkdir (FileAnswer.commit_ok h)
  exact Machine.Durable.issue (T := FileOp.Value) hP (fun o _ w' h => hok w' (hsame h)) fun o e w' h =>
    herr e w' (hsame h)

theorem durable_backupSqliteSet {databases : List (PyText × PyText)} {destination : PyText}
    (hP : ∀ w', KeepsBackups lib w w' → P w') :
    (fileSystem lib).Durable P (fun x w' => KeepsBackups lib w w' ∧
      ∀ m, x = .ok m → Saved lib databases destination m w') (backupSqliteSet lib databases destination) w := by
  have hraised : ∀ {w' : FileSystem} (e : PyException), KeepsBackups lib w w' → KeepsBackups lib w w' ∧
      ∀ m, Except.error e = Except.ok m → Saved lib databases destination m w' := fun e h => ⟨h, fun m h => by cases h⟩
  have hself : KeepsBackups lib w w := fun _ _ _ => .refl
  unfold backupSqliteSet
  refine Machine.Durable.ofExcept (fun target htarget => ?_) fun e _ => hraised e hself
  refine durable_mkdir (hP w hself) (fun w₀ hw₀ => ?_) fun e w' h => hraised e fun q _ _ => h q
  have hkeeps : ∀ {w'}, KeepsFiles lib w₀ w' → KeepsBackups lib w w' :=
    fun h q _ hd => (hw₀ q).trans (h q ((hw₀ q).stands hd))
  refine (durable_backupDatabases databases [] fun w' h => hP w' (hkeeps h)).bind (fun artifacts w₁ h₁ => ?_)
    fun e w' h => hraised e (hkeeps h.1)
  obtain ⟨hkeeps₁, hbacked⟩ := h₁
  have hbut : ∀ {w'}, SameBut lib (manifestPath target) w₁ w' → KeepsBackups lib w w' :=
    fun h q hq hd => (hkeeps hkeeps₁ q hq hd).trans (h q (hq target))
  refine Machine.Durable.issue (T := FileOp.Value) (hP w₁ (hbut .refl)) (fun o createdAt w' h => ?_) fun o e w' h =>
    hraised e (by rw [← (Prod.mk.inj h).2]; exact hbut .refl)
  obtain rfl : w₁ = w' := (Prod.mk.inj h).2
  refine durable_committed (fun _ _ _ h => FileAnswer.commit_ok h) (fun _ _ _ h => FileAnswer.commit_error h)
    (hP w₁ (hbut .refl)) (fun _ w₂ hw₂ => ?_) fun e => hraised e (hbut .refl)
  have hw₂ : SameBut lib (manifestPath target) w₁ w₂ := fun _ hq => same_truncate hw₂ hq
  refine Machine.Durable.issue (T := FileOp.Value) (hP w₂ (hbut hw₂)) (fun o _ w₃ h => ?_) fun o e w₃ h => ?_
  · obtain ⟨hdone, rfl⟩ := Prod.mk.inj h
    have hfault : o.fault.isSome = false := by
      unfold FileAnswer.guard at hdone
      cases hfault : o.fault with
      | none => rfl
      | some e =>
        rw [hfault] at hdone
        cases hdone
    have hw₃ := hw₂.trans fun q hq => same_write (d := if o.fault.isSome then o.data else
      BackupManifest.text ⟨1, createdAt, artifacts⟩) hq
    refine ⟨hbut hw₃, fun m hm => ?_⟩
    obtain rfl := Except.ok.inj hm
    refine ⟨target, w₁, htarget, hbacked artifacts rfl, hw₃, ?_⟩
    rw [hfault]
    exact data_write_self
  · obtain rfl := (Prod.mk.inj h).2
    exact hraised e (hbut (hw₂.trans fun q hq => same_write hq))

/-! ## A restore -/

/-- Every file that is no temporary file is as it was, and no other appears. -/
def SamePlain (lib : SqliteLibrary) (w w' : FileSystem) : Prop :=
  ∀ q, (∀ target, temporaryOf target ≠ .ok q) → Same lib q w w'

/-- The bytes a restore puts in place: checked, and a copy of the database of a backup with the expected digest, unless
the backup is itself the temporary file. -/
structure Restored (lib : SqliteLibrary) (source temporary : PyPath) (expectedSha256 : PyText) (w : FileSystem)
    (copy : Bytes) : Prop where
  sound : lib.integrityCheck copy = .ok (PyText.utf8 "ok")
  origin : source ≠ temporary → ∃ data, w.data source = some data ∧ PyText.utf8 (lib.digest data) = expectedSha256 ∧
    lib.integrityCheck (lib.database data (w.log source)) = .ok (PyText.utf8 "ok") ∧
    lib.copyOf (lib.database data (w.log source)) = .ok copy

/-- What a restore has done when it returns: what log was beside the file stays there. -/
structure Restores (lib : SqliteLibrary) (backup destination expectedSha256 : PyText) (replace : Bool)
    (w : FileSystem) (p : PyPath) (w' : FileSystem) : Prop where
  resolved : lib.resolve destination = .ok p
  restored : ∃ source temporary copy, lib.resolve backup = .ok source ∧ temporaryOf p = .ok temporary ∧
    Restored lib source temporary expectedSha256 w copy ∧ w'.data p = some copy
  log : w.log p = [] → w'.log p = []
  same : ∀ q, q ≠ p → (∀ target, temporaryOf target ≠ .ok q) → Same lib q w w'
  replaced : replace = false → w.data p = none

/-- What the copy of a restore has done when it is in place. -/
structure Placed (lib : SqliteLibrary) (source temporary target : PyPath) (w w' : FileSystem) : Prop where
  copy : ∃ copy, w'.data target = some copy ∧ lib.integrityCheck copy = .ok (PyText.utf8 "ok") ∧
    (source ≠ temporary → ∃ d, w.holds lib source = some d ∧ lib.copyOf d = .ok copy)
  log : w.log target = [] → w'.log target = []
  same : ∀ q, q ≠ temporary → q ≠ target → Same lib q w w'

/-- The copy of a restore: only the temporary file changes, until a copy that was checked is renamed. -/
theorem durable_placeCopy {source temporary target : PyPath} (hne : temporary ≠ target)
    (hstands : w.data source ≠ none) (hP : ∀ w', SameBut lib temporary w w' → P w') :
    (fileSystem lib).Durable P (fun x w' => (∀ e, x = .error e → SameBut lib temporary w w') ∧
      ∀ p, x = .ok p → p = target ∧ Placed lib source temporary target w w')
      (do
        file (.unlink temporary)
        copyDatabase source temporary
        if (← integrity temporary) ≠ PyText.utf8 "ok" then do
          file (.unlink temporary)
          .raise (backupError "restored database failed integrity check")
        else do
          file (.replace temporary target)
          return target : Files PyPath) w := by
  have hraised : ∀ {w' : FileSystem} (e : PyException), SameBut lib temporary w w' →
      (∀ e', (Except.error e : Except PyException PyPath) = .error e' → SameBut lib temporary w w') ∧
      ∀ p, Except.error e = Except.ok p → p = target ∧ Placed lib source temporary target w w' :=
    fun e h => ⟨fun _ _ => h, fun p h => by cases h⟩
  refine durable_unlink (hP _ .refl) (fun w₁ hw₁ => ?_) fun e => hraised e .refl
  have hw₁ : SameBut lib temporary w w₁ := fun _ hq => same_unlink hw₁ hq
  have hsource : source = temporary ∨ w₁.data source ≠ none :=
    or_iff_not_imp_left.mpr fun hother => (hw₁ source hother).stands hstands
  refine (durable_copyDatabase hsource fun w₂ h => hP w₂ (hw₁.trans h)).bind (fun _ w₂ hcopied => ?_)
    fun e w₂ hcopied => hraised e (hw₁.trans hcopied.same)
  have hw₂ := hw₁.trans hcopied.same
  obtain ⟨copy, hcopy, hlog, hof⟩ := hcopied.copy rfl
  have hsame : ∀ {w'}, (∀ q, Same lib q w₂ w') → SameBut lib temporary w w' := fun h => hw₂.trans fun q _ => h q
  refine (durable_integrity (by simp [hcopy]) fun w' h => hP w' (hsame h)).bind (fun check w₃ hcheck => ?_)
    fun e w' h => hraised e (hsame h.1)
  obtain ⟨hsame₃, hcheck⟩ := hcheck
  have hw₃ := hsame hsame₃
  by_cases hok : check ≠ PyText.utf8 "ok"
  · rw [if_pos hok]
    refine durable_unlink (hP _ hw₃) (fun w₄ hw₄ => hraised _ (hw₃.trans ?_)) fun e => hraised e hw₃
    exact fun _ hq => same_unlink hw₄ hq
  rw [if_neg hok]
  refine durable_committed (fun _ _ _ h => FileAnswer.commit_ok h) (fun _ _ _ h => FileAnswer.commit_error h)
    (hP _ hw₃) (fun _ w₄ hw₄ => ?_) fun e => hraised e hw₃
  obtain ⟨copy', hcopy', hplaced, hlogplaced, hothers⟩ := replace_ok hw₄
  obtain rfl : copy = copy' :=
    Option.some.inj (hcopy.symm.trans (((hsame₃ temporary).settled hlog).1.symm.trans hcopy'))
  refine ⟨fun e h => (by cases h), fun p hp => ⟨(Except.ok.inj hp).symm, ⟨copy, hplaced, ?_, fun hother => ?_⟩,
    fun hlogtarget => ?_, fun q hq hqtarget => (hw₃ q hq).trans (hothers q hq hqtarget)⟩⟩
  · obtain ⟨d, hd, hsound⟩ := hcheck check rfl
    obtain rfl : copy = d := Option.some.inj ((holds_of_data hcopy hlog).symm.trans hd)
    rw [hsound, show check = PyText.utf8 "ok" by simpa using hok]
  · obtain ⟨d, hd, hof⟩ := hof hother
    exact ⟨d, (hw₁ source hother).holds.symm.trans hd, hof⟩
  · exact hlogplaced.trans ((hw₃ target hne.symm).settled hlogtarget).2

theorem durable_restoreSqliteBackup {backup destination expectedSha256 : PyText} {replace : Bool}
    (hP : ∀ w', SamePlain lib w w' → P w') :
    (fileSystem lib).Durable P (fun x w' => (∀ e, x = .error e → SamePlain lib w w') ∧
      ∀ p, x = .ok p → Restores lib backup destination expectedSha256 replace w p w')
      (restoreSqliteBackup lib backup destination expectedSha256 replace) w := by
  have hraised : ∀ {w' : FileSystem} (e : PyException), SamePlain lib w w' →
      (∀ e', (Except.error e : Except PyException PyPath) = .error e' → SamePlain lib w w') ∧
      ∀ p, Except.error e = Except.ok p → Restores lib backup destination expectedSha256 replace w p w' :=
    fun e h => ⟨fun _ _ => h, fun p h => by cases h⟩
  have hself : SamePlain lib w w := fun _ _ => .refl
  unfold restoreSqliteBackup
  refine Machine.Durable.ofExcept (fun source hsource => ?_) fun e _ => hraised e hself
  refine Machine.Durable.ofExcept (fun target htarget => ?_) fun e _ => hraised e hself
  refine durable_isFile (hP w hself) ?_ fun e => hraised e hself
  by_cases hfile : (w.data source).isSome = false
  · rw [if_pos hfile]
    exact hraised _ hself
  rw [if_neg hfile]
  have hstands : w.data source ≠ none := by simpa using hfile
  refine durable_fileDigest (hP w hself) (fun d hd => ?_) fun e => hraised e hself
  by_cases hdigest : PyText.utf8 (lib.digest d) ≠ expectedSha256
  · rw [if_pos hdigest]
    exact hraised _ hself
  rw [if_neg hdigest]
  refine (durable_integrity hstands fun w' h => hP w' fun q _ => h q).bind (fun check w₀ hcheck => ?_)
    fun e w' h => hraised e fun q _ => h.1 q
  obtain ⟨hw₀, hcheck⟩ := hcheck
  have hplain₀ : SamePlain lib w w₀ := fun q _ => hw₀ q
  by_cases hok : check ≠ PyText.utf8 "ok"
  · rw [if_pos hok]
    exact hraised _ hplain₀
  rw [if_neg hok]
  refine durable_pathExists (hP _ hplain₀) ?_ fun e => hraised e hplain₀
  by_cases hexists : (w₀.entry target).isSome = true ∧ replace = false
  · rw [if_pos hexists]
    exact hraised _ hplain₀
  rw [if_neg hexists]
  refine durable_mkdir (hP _ hplain₀) (fun w₁ hw₁ => ?_) fun e w₁ h => hraised e fun q _ => (hw₀ q).trans (h q)
  have hw₁ : ∀ q, Same lib q w w₁ := fun q => (hw₀ q).trans (hw₁ q)
  refine Machine.Durable.ofExcept (fun temporary htemporary => ?_) fun e _ => hraised e fun q _ => hw₁ q
  -- From here on the temporary file changes, and nothing else before it is renamed.
  have hplain : ∀ {w'}, SameBut lib temporary w₁ w' → SamePlain lib w w' := fun h q hq =>
    (hw₁ q).trans (h q fun hq' => hq target (hq' ▸ htemporary))
  refine (durable_placeCopy (temporaryOf_ne htemporary) ((hw₁ source).stands hstands) fun w' h =>
    hP w' (hplain h)).mono (fun _ h => h) fun x w' h => ⟨fun e he => hplain (h.1 e he), fun p hp => ?_⟩
  obtain ⟨rfl, hplaced⟩ := h.2 p hp
  obtain ⟨copy, hcopy, hsound, hof⟩ := hplaced.copy
  refine ⟨htarget, ⟨source, temporary, copy, hsource, htemporary, ⟨hsound, fun hne => ?_⟩, hcopy⟩, fun hlog => ?_,
    fun q hq hplainq => ?_, fun hreplace => ?_⟩
  · have hholds : w.holds lib source = some (lib.database d (w.log source)) := by rw [FileSystem.holds, hd]; rfl
    obtain ⟨d', hd', hchecked⟩ := hcheck check rfl
    obtain ⟨d'', hd'', hof⟩ := hof hne
    obtain rfl := Option.some.inj (hholds.symm.trans hd')
    obtain rfl := Option.some.inj (hholds.symm.trans ((hw₁ source).holds.symm.trans hd''))
    exact ⟨d, hd, by simpa using hdigest, by rw [hchecked, show check = PyText.utf8 "ok" by simpa using hok], hof⟩
  · exact hplaced.log ((hw₁ p).settled hlog).2
  · exact (hw₁ q).trans (hplaced.same q (fun h => hplainq p (h ▸ htemporary)) hq)
  · have hnone : w₀.data p = none := data_of_none (by simpa [hreplace] using hexists)
    exact holds_eq_none.mp ((hw₀ p).holds.symm.trans (holds_eq_none.mpr hnone))

end Programs

/-- No manifest, and no temporary file of a restore. -/
structure Plain (q : PyPath) : Prop where
  manifest : ∀ target, q ≠ manifestPath target
  temporary : ∀ target, temporaryOf target ≠ .ok q

/-- The names of manifests, temporary files and backups end in different letters. -/
theorem plain_backupPath (target : PyPath) (name : PyText) : Plain (backupPath target name) := by
  have hlast : ∀ {parts : PyPath} {part : PyText}, backupPath target name = parts ++ [part] →
      part.codes.getLast? = some '3'.toNat := by
    intro parts part h
    have hpart : name ++ PyText.utf8 ".sqlite3" = part := List.singleton_inj.mp (List.append_inj_right' h rfl)
    rw [← hpart, PyText.codes_append, List.getLast?_append]
    rfl
  refine ⟨fun target' h => ?_, fun target' h => ?_⟩
  · exact absurd (hlast h) (by decide)
  · unfold temporaryOf at h
    split at h
    · cases h
    · have hcodes := hlast (Except.ok.inj h).symm
      rw [PyText.codes_append, List.getLast?_append] at hcodes
      exact absurd (show some 'p'.toNat = some '3'.toNat from hcodes) (by decide)

/-! ## Calls one after another -/

/-- The call is a restore that puts these bytes there: checked, and a copy of the database in a file with the expected
digest. -/
def Overwrites (lib : SqliteLibrary) (c : BackupCall) (q : PyPath) (copy : Bytes) : Prop :=
  lib.integrityCheck copy = .ok (PyText.utf8 "ok") ∧ ∃ backup destination expectedSha256 source temporary,
    c = .restore backup destination expectedSha256 true ∧ lib.resolve backup = .ok source ∧
    lib.resolve destination = .ok q ∧ temporaryOf q = .ok temporary ∧
    (source ≠ temporary → ∃ data log, PyText.utf8 (lib.digest data) = expectedSha256 ∧
      lib.copyOf (lib.database data log) = .ok copy)

section Calls

open FileSystem

variable {lib : SqliteLibrary} {w : FileSystem} {q : PyPath} {calls : List BackupCall}

/-- A file after some calls. If no log was beside it there is none now, and its bytes are the same, or one of the calls
has put its own there. With or without a log, the database in it is the same, or one of the calls has replaced it. -/
structure Intact (lib : SqliteLibrary) (calls : List BackupCall) (q : PyPath) (w w' : FileSystem) : Prop where
  bytes : w.log q = [] → w'.log q = [] ∧
    (w'.data q = w.data q ∨ ∃ c ∈ calls, ∃ copy, Overwrites lib c q copy ∧ w'.data q = some copy)
  database : w'.holds lib q = w.holds lib q ∨ ∃ c ∈ calls, ∃ copy, Overwrites lib c q copy
  stands : w'.data q ≠ none

theorem FileSystem.Same.intact {w' : FileSystem} (h : Same lib q w w') (hd : w.data q ≠ none) :
    Intact lib calls q w w' :=
  ⟨fun hlog => ⟨(h.settled hlog).2, .inl (h.settled hlog).1⟩, .inl h.holds, h.stands hd⟩

theorem Intact.trans {c : BackupCall} {w' w'' : FileSystem} (h : Intact lib calls q w w')
    (h' : Intact lib [c] q w' w'') (hc : c ∈ calls) : Intact lib calls q w w'' := by
  have hsome : ∀ {p : Bytes → Prop}, (∃ c' ∈ [c], ∃ copy, Overwrites lib c' q copy ∧ p copy) →
      ∃ c' ∈ calls, ∃ copy, Overwrites lib c' q copy ∧ p copy := by
    rintro p ⟨c', hc', hrest⟩
    exact ⟨c', List.mem_singleton.mp hc' ▸ hc, hrest⟩
  refine ⟨fun hlog => ?_, ?_, h'.stands⟩
  · obtain ⟨hlog', hdata'⟩ := h.bytes hlog
    obtain ⟨hlog'', hdata''⟩ := h'.bytes hlog'
    refine ⟨hlog'', ?_⟩
    rcases hdata'' with hkept | hreplaced
    · rwa [hkept]
    · exact .inr (hsome hreplaced)
  · rcases h'.database with hkept | ⟨c', hc', hreplaced⟩
    · rw [hkept]
      exact h.database
    · exact .inr ⟨c', List.mem_singleton.mp hc' ▸ hc, hreplaced⟩

/-- What one call leaves of a file, wherever it is cut short. -/
theorem durable_call (c : BackupCall) (hplain : Plain q) (hd : w.data q ≠ none) :
    (fileSystem lib).Durable (Intact lib [c] q w) (fun _ => Intact lib [c] q w) (c.body lib) w := by
  cases c with
  | backup databases destination =>
    have hkeeps : ∀ w', KeepsBackups lib w w' → Intact lib [.backup databases destination] q w w' :=
      fun w' h => (h q hplain.manifest hd).intact hd
    exact (durable_backupSqliteSet hkeeps).bind (fun m w' h => hkeeps w' h.1) fun e w' h => hkeeps w' h.1
  | restore backup destination expectedSha256 replace =>
    have hsame : ∀ w', SamePlain lib w w' → Intact lib [.restore backup destination expectedSha256 replace] q w w' :=
      fun w' h => (h q hplain.temporary).intact hd
    refine (durable_restoreSqliteBackup hsame).bind (fun p w' h => ?_) fun e w' h => hsame w' (h.1 e rfl)
    have hrestores := h.2 p rfl
    by_cases hq : q = p
    · subst hq
      obtain ⟨source, temporary, copy, hsource, htemporary, hrestored, hcopy⟩ := hrestores.restored
      have hreplace : replace = true := by
        by_contra hreplace
        exact hd (hrestores.replaced (by simpa using hreplace))
      subst hreplace
      have hover : Overwrites lib (.restore backup destination expectedSha256 true) q copy := by
        refine ⟨hrestored.sound, backup, destination, expectedSha256, source, temporary, rfl, hsource,
          hrestores.resolved, htemporary, fun hne => ?_⟩
        obtain ⟨data, -, hdigest, -, hof⟩ := hrestored.origin hne
        exact ⟨data, w.log source, hdigest, hof⟩
      exact ⟨fun hlog => ⟨hrestores.log hlog, .inr ⟨_, List.mem_singleton_self _, copy, hover, hcopy⟩⟩,
        .inr ⟨_, List.mem_singleton_self _, copy, hover⟩, by simp [hcopy]⟩
    · exact (hrestores.same q hq hplain.temporary).intact hd

/-- **No file is lost or torn.** However many backups and restores are made one after another, and wherever they fail or
are cut short: a file that is no manifest and no temporary file, and beside which there is no log, keeps its bytes, or
it is the whole of a checked copy that a restore was asked to replace it by; and the database in a file with a log is
the same until a restore replaces it. -/
theorem file_intact (lib : SqliteLibrary) (h : Hist BackupCall FileSystem FileOp) (t : ℕ)
    (calls : List (BackupCall × List FileAnswer)) (hplain : Plain q) (hd : h.world.data q ≠ none) :
    Intact lib (calls.map Prod.fst) q h.world
      ((fileSystem lib).sessions (BackupCall.body lib) t calls h).world := by
  refine Machine.durable_sessions (P := Intact lib (calls.map Prod.fst) q h.world) (fun call hcall w hw => ?_)
    (Same.refl.intact hd)
  have hmem : call.1 ∈ calls.map Prod.fst := List.mem_map_of_mem hcall
  exact (durable_call call.1 hplain hw.stands).mono (fun w' h' => hw.trans h' hmem) fun _ w' h' => hw.trans h' hmem

end Calls

/-! ## Backup and restore -/

section Round

variable (lib : SqliteLibrary) (h : Hist BackupCall FileSystem FileOp) (databases : List (PyText × PyText))
  (destination : PyText) (os os' : List FileAnswer) (later : List (BackupCall × List FileAnswer))

/-- One call, alone. -/
def BackupCall.run (t : ℕ) (c : BackupCall) (os : List FileAnswer) (h : Hist BackupCall FileSystem FileOp) :
    Outcome PyException BackupResult × Hist BackupCall FileSystem FileOp :=
  (fileSystem lib).run t c (c.body lib) os h

/-- A set of backups. -/
def savedSet : Outcome PyException BackupResult × Hist BackupCall FileSystem FileOp :=
  BackupCall.run lib 0 (.backup databases destination) os h

/-- Other calls after it. -/
def afterwards : Hist BackupCall FileSystem FileOp :=
  (fileSystem lib).sessions (BackupCall.body lib) 1 later (savedSet lib h databases destination os).2

/-- Then one of the backups is restored. -/
def broughtBack (a : BackupArtifact) (destination' : PyText) (replace : Bool) :
    Outcome PyException BackupResult × Hist BackupCall FileSystem FileOp :=
  BackupCall.run lib (1 + later.length) (.restore a.backup destination' (PyText.utf8 a.sha256) replace) os'
    (afterwards lib h databases destination os later)

variable {lib h databases destination os os' later}

theorem saved_of_returned {m : BackupManifest}
    (hm : (savedSet lib h databases destination os).1 = .returned (.manifest m)) :
    Saved lib databases destination m (savedSet lib h databases destination os).2.world := by
  have hbody : (fileSystem lib).Durable (fun _ => True) (fun x w' => ∀ m, x = .ok (.manifest m) →
      Saved lib databases destination m w') ((BackupCall.backup databases destination).body lib) h.world := by
    refine (durable_backupSqliteSet fun _ _ => trivial).bind (fun m' w' hsaved m hm => ?_)
      fun e w' _ m hm => by cases hm
    obtain rfl := BackupResult.manifest.inj (Except.ok.inj hm)
    exact hsaved.2 _ rfl
  have hleaves := Machine.durable_run (t := 0) (c := BackupCall.backup databases destination) hbody os
  change Outcome.Leaves _ _ (savedSet lib h databases destination os).2.world
    (savedSet lib h databases destination os).1 at hleaves
  rw [hm] at hleaves
  exact hleaves m rfl

theorem restores_of_returned {a : BackupArtifact} {destination' : PyText} {replace : Bool} {p : PyPath}
    (hp : (broughtBack lib h databases destination os os' later a destination' replace).1 = .returned (.path p)) :
    Restores lib a.backup destination' (PyText.utf8 a.sha256) replace
      (afterwards lib h databases destination os later).world p
      (broughtBack lib h databases destination os os' later a destination' replace).2.world := by
  have hbody : (fileSystem lib).Durable (fun _ => True) (fun x w' => ∀ p, x = .ok (.path p) →
      Restores lib a.backup destination' (PyText.utf8 a.sha256) replace
        (afterwards lib h databases destination os later).world p w')
      ((BackupCall.restore a.backup destination' (PyText.utf8 a.sha256) replace).body lib)
      (afterwards lib h databases destination os later).world := by
    refine (durable_restoreSqliteBackup fun _ _ => trivial).bind (fun p' w' hrestores p hp => ?_)
      fun e w' _ p hp => by cases hp
    obtain rfl := BackupResult.path.inj (Except.ok.inj hp)
    exact hrestores.2 _ rfl
  have hleaves := Machine.durable_run (t := 1 + later.length)
    (c := BackupCall.restore a.backup destination' (PyText.utf8 a.sha256) replace) hbody os'
  change Outcome.Leaves _ _ (broughtBack lib h databases destination os os' later a destination' replace).2.world
    (broughtBack lib h databases destination os os' later a destination' replace).1 at hleaves
  rw [hp] at hleaves
  exact hleaves p rfl

/-- **A restore brings back what was backed up.** A set of databases is backed up, then any backups and restores are
made, with failures and crashes, none of which replaces the file of an artifact, and then the artifact is restored with
the digest of the manifest to a place beside which there is no log: the database there has the content its database had
when the backup returned. -/
theorem restored_content {δ : Type} (content : Bytes → δ)
    (hcontent : ∀ d copy, lib.copyOf d = .ok copy → content copy = content d) {m : BackupManifest}
    (hm : (savedSet lib h databases destination os).1 = .returned (.manifest m)) {target : PyPath}
    (htarget : lib.resolve destination = .ok target) {database : PyText × PyText} {a : BackupArtifact}
    (ha : (database, a) ∈ databases.zip m.artifacts) (hbackup : lib.resolve a.backup = .ok (backupPath target a.name))
    (hlater : ∀ call ∈ later, ∀ backup destination' expectedSha256,
      call.1 = .restore backup destination' expectedSha256 true →
        lib.resolve destination' ≠ .ok (backupPath target a.name))
    {destination' : PyText} {replace : Bool} {p : PyPath}
    (hp : (broughtBack lib h databases destination os os' later a destination' replace).1 = .returned (.path p))
    (hlog : (afterwards lib h databases destination os later).world.log p = []) :
    ∃ source d restored, lib.resolve database.2 = .ok source ∧
      (source ≠ manifestPath target → (savedSet lib h databases destination os).2.world.holds lib source = some d) ∧
      (broughtBack lib h databases destination os os' later a destination' replace).2.world.holds lib p =
        some restored ∧ content restored = content d := by
  have hplain := plain_backupPath target a.name
  -- What the backup has saved.
  obtain ⟨target', w₁, htarget', hbacked, hmanifest, -⟩ := saved_of_returned hm
  obtain rfl : target = target' := Except.ok.inj (htarget.symm.trans htarget')
  obtain ⟨-, source, hsource, hbacked⟩ := (List.forall₂_iff_zip.mp hbacked).2 ha
  obtain ⟨d, copy, hd, hcopy, hfile, hfilelog, -⟩ := hbacked.copied
  obtain ⟨hfile', hfilelog'⟩ := (hmanifest _ (hplain.manifest target)).settled hfilelog
  -- It is still there when it is restored.
  have hkept : (afterwards lib h databases destination os later).world.log (backupPath target a.name) = [] ∧
      (afterwards lib h databases destination os later).world.data (backupPath target a.name) = some copy := by
    refine Machine.durable_sessions (P := fun w : FileSystem => w.log (backupPath target a.name) = [] ∧
      w.data (backupPath target a.name) = some copy) (fun call hcall w hw => ?_) ⟨hfilelog', hfile'.trans hfile⟩
    have hintact : ∀ w', Intact lib [call.1] (backupPath target a.name) w w' →
        w'.log (backupPath target a.name) = [] ∧ w'.data (backupPath target a.name) = some copy := by
      intro w' hw'
      obtain ⟨hlog', hsame | hreplaced⟩ := hw'.bytes hw.1
      · exact ⟨hlog', hsame.trans hw.2⟩
      · obtain ⟨c, hc, -, ⟨-, backup, destination', expectedSha256, -, -, hrestore, -, hdest, -⟩, -⟩ := hreplaced
        exact absurd hdest (hlater call hcall backup destination' expectedSha256
          ((List.mem_singleton.mp hc).symm.trans hrestore))
    exact (durable_call call.1 hplain (by simp [hw.2])).mono hintact fun _ => hintact
  obtain ⟨hkeptlog, hkept⟩ := hkept
  -- What the restore has put at the destination.
  have hrestores := restores_of_returned hp
  obtain ⟨source', temporary, restored, hsource', htemporary, hrestored, hplaced⟩ := hrestores.restored
  obtain rfl : backupPath target a.name = source' := Except.ok.inj (hbackup.symm.trans hsource')
  obtain ⟨copy', hcopy', -, -, hof⟩ := hrestored.origin fun hne => hplain.temporary p (hne ▸ htemporary)
  obtain rfl : copy = copy' := Option.some.inj (hkept.symm.trans hcopy')
  rw [hkeptlog, show lib.database copy [] = copy from if_pos rfl] at hof
  refine ⟨source, d, restored, hsource, fun hne => (hmanifest source hne).holds.trans hd,
    FileSystem.holds_of_data hplaced (hrestores.log hlog), ?_⟩
  rw [hcontent copy restored hof, hcontent d copy hcopy]

end Round

/-- Databases that are copied byte by byte. -/
def SqliteLibrary.sample : SqliteLibrary where
  resolve text :=
    if text = PyText.utf8 "/b" then .ok [PyText.utf8 "b"]
    else if text = PyText.utf8 "/b/x.sqlite3" then .ok [PyText.utf8 "b", PyText.utf8 "x.sqlite3"]
    else if text = PyText.utf8 "/s" then .ok [PyText.utf8 "s"]
    else .ok [PyText.utf8 "r"]
  digest d := toString d.length
  recover data log := data ++ log
  integrityCheck _ := .ok (PyText.utf8 "ok")
  copyOf := .ok

/-- One database, a part of it still in its log. -/
def FileSystem.sample : FileSystem where
  entry p := if p = [] then some .directory else if p = [PyText.utf8 "s"] then some (.file [1]) else none
  log p := if p = [PyText.utf8 "s"] then [2] else []

/-- A connection moves all of it into the file. -/
def FileAnswer.sample : FileAnswer where
  fault := none
  data := []
  log := []
  settledData := [1, 2]
  settledLog := []
  made := 0
  clock := "2026-01-01T00:00:00+00:00"

def BackupManifest.sample : BackupManifest where
  formatVersion := 1
  createdAt := "2026-01-01T00:00:00+00:00"
  artifacts := [⟨PyText.utf8 "x", PyText.utf8 "/s", PyText.utf8 "/b/x.sqlite3", "2", PyText.utf8 "ok"⟩]

/-- A restore that is cut short within its copy. -/
def sampleLater : List (BackupCall × List FileAnswer) :=
  [(.restore (PyText.utf8 "/b/x.sqlite3") (PyText.utf8 "/r") (PyText.utf8 "2") false, List.replicate 10 .sample)]

/-- After the backup of the database. -/
def sampleSaved : Outcome PyException BackupResult × Hist BackupCall FileSystem FileOp :=
  savedSet .sample ⟨.sample, []⟩ [(PyText.utf8 "x", PyText.utf8 "/s")] (PyText.utf8 "/b") (List.replicate 13 .sample)

/-- After the restore of its backup. -/
def sampleBroughtBack : Outcome PyException BackupResult × Hist BackupCall FileSystem FileOp :=
  broughtBack .sample ⟨.sample, []⟩ [(PyText.utf8 "x", PyText.utf8 "/s")] (PyText.utf8 "/b") (List.replicate 13 .sample)
    (List.replicate 14 .sample) sampleLater
    ⟨PyText.utf8 "x", PyText.utf8 "/s", PyText.utf8 "/b/x.sqlite3", "2", PyText.utf8 "ok"⟩ (PyText.utf8 "/r") false

theorem restored_content_sample : ∃ source d restored,
    SqliteLibrary.sample.resolve (PyText.utf8 "/s") = .ok source ∧
    (source ≠ manifestPath [PyText.utf8 "b"] → sampleSaved.2.world.holds .sample source = some d) ∧
    sampleBroughtBack.2.world.holds .sample [PyText.utf8 "r"] = some restored ∧ restored = d := by
  have hm : sampleSaved.1 = .returned (.manifest .sample) := rfl
  have htarget : SqliteLibrary.sample.resolve (PyText.utf8 "/b") = .ok [PyText.utf8 "b"] := rfl
  have hp : sampleBroughtBack.1 = .returned (.path [PyText.utf8 "r"]) := rfl
  refine restored_content id (fun d copy h => (Except.ok.inj h).symm) hm htarget (List.mem_singleton.mpr rfl) rfl ?_ hp
    rfl
  intro call hcall backup destination' expectedSha256 h
  obtain rfl := List.mem_singleton.mp hcall
  cases h

/-- The copy in the backup keeps its bytes. -/
theorem file_intact_sample : sampleSaved.2.world.data (backupPath [PyText.utf8 "b"] (PyText.utf8 "x")) = some [1, 2] ∧
    Intact .sample (sampleLater.map Prod.fst) (backupPath [PyText.utf8 "b"] (PyText.utf8 "x")) sampleSaved.2.world
      ((fileSystem .sample).sessions (BackupCall.body .sample) 1 sampleLater sampleSaved.2).world := by
  have hd : sampleSaved.2.world.data (backupPath [PyText.utf8 "b"] (PyText.utf8 "x")) = some [1, 2] := rfl
  exact ⟨hd, file_intact .sample sampleSaved.2 1 sampleLater (plain_backupPath _ _) (by simp [hd])⟩

end Rpr
