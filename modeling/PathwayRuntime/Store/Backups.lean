import PathwayRuntime.Model.Backup
import PathwayRuntime.Python.Loaded

/-!
# What backups and restores leave behind

* `FileSystem.Same`: a database is as it was, and so is a file without a log; `same_settle`, …: what each operation
  leaves as it was.
* `durable_isFile`, …: one rule for each operation.
* `KeepsFiles`: every file that stands is as it was.
-/

set_option autoImplicit false

namespace Rpr

open Resume

/-! ## Files -/

namespace FileSystem

variable {fs fs' : FileSystem} {p q r : PyPath} {d log : Bytes} {e : PyException}

theorem data_write : (fs.write p d).data q = if q = p then some d else fs.data q := by
  unfold FileSystem.data FileSystem.write
  by_cases h : q = p
  · subst h
    simp
  · simp [h]

theorem data_write_self : (fs.write p d).data p = some d := by
  rw [data_write, if_pos rfl]

theorem data_write_of_ne (h : q ≠ p) : (fs.write p d).data q = fs.data q := by
  rw [data_write, if_neg h]

theorem data_remove_of_ne (h : q ≠ p) : (fs.remove p).data q = fs.data q := by
  unfold FileSystem.data FileSystem.remove
  simp only [Function.update_of_ne h]

theorem data_withDirectories : (fs.withDirectories p).data q = fs.data q := by
  unfold FileSystem.data FileSystem.withDirectories
  by_cases h : q <+: p ∧ fs.entry q = none
  · simp [h.1, h.2]
  · simp only [if_neg h]

theorem data_of_none (h : fs.entry p = none) : fs.data p = none := by
  simp [FileSystem.data, h]

theorem read_ok (h : fs.read p = .ok d) : fs.data p = some d := by
  unfold FileSystem.read at h
  unfold FileSystem.data
  split at h
  · rename_i data hfile
    rw [hfile, Except.ok.inj h]
  · cases h
  · cases h

theorem log_put_self : (fs.put p d log).log p = log := Function.update_self ..

/-! ## One file -/

variable {lib : SqliteLibrary}

theorem holds_eq_none : fs.holds lib p = none ↔ fs.data p = none := Option.map_eq_none_iff

theorem holds_of_data (hd : fs.data p = some d) (hlog : fs.log p = []) : fs.holds lib p = some d := by
  rw [FileSystem.holds, hd, hlog]
  exact congrArg some (if_pos rfl)

theorem readDatabase_ok (h : fs.readDatabase lib p = .ok d) : fs.holds lib p = some d := by
  obtain ⟨data, hread, rfl⟩ := map_eq_ok h
  rw [FileSystem.holds, read_ok hread]
  rfl

/-- The database at a path is as it was, and a file without a log is: neither has changed, and no log has come. -/
structure Same (lib : SqliteLibrary) (q : PyPath) (fs fs' : FileSystem) : Prop where
  holds : fs'.holds lib q = fs.holds lib q
  settled : fs.log q = [] → fs'.data q = fs.data q ∧ fs'.log q = []

theorem Same.refl : Same lib q fs fs := ⟨rfl, fun h => ⟨rfl, h⟩⟩

theorem Same.trans {fs'' : FileSystem} (h : Same lib q fs fs') (h' : Same lib q fs' fs'') : Same lib q fs fs'' := by
  refine ⟨h'.holds.trans h.holds, fun hlog => ?_⟩
  obtain ⟨hdata, hlog'⟩ := h.settled hlog
  exact ⟨(h'.settled hlog').1.trans hdata, (h'.settled hlog').2⟩

theorem Same.of_eq (hdata : fs'.data q = fs.data q) (hlog : fs'.log q = fs.log q) : Same lib q fs fs' := by
  refine ⟨?_, fun h => ⟨hdata, hlog.trans h⟩⟩
  rw [FileSystem.holds, FileSystem.holds, hdata, hlog]

theorem Same.stands (h : Same lib q fs fs') (hd : fs.data q ≠ none) : fs'.data q ≠ none := by
  rw [Ne, ← @holds_eq_none fs' q lib, h.holds, holds_eq_none]
  exact hd

theorem same_write (h : q ≠ p) : Same lib q fs (fs.write p d) := .of_eq (data_write_of_ne h) rfl

theorem same_put (h : q ≠ p) : Same lib q fs (fs.put p d log) :=
  .of_eq (data_write_of_ne h) (Function.update_of_ne h ..)

/-- **What a connection moves between a file and its log** changes no database. -/
theorem same_settle (o : FileAnswer) : Same lib q fs (fs.settle lib p o) := by
  unfold FileSystem.settle
  split_ifs with h
  · by_cases hq : q = p
    · subst hq
      refine ⟨?_, fun hlog => absurd hlog h.1⟩
      rw [h.2, FileSystem.holds, log_put_self]
      exact congrArg (Option.map _) data_write_self
    · exact same_put hq
  · exact .refl

theorem same_mkdir (h : fs.mkdir p = .ok fs') : Same lib q fs fs' := by
  unfold FileSystem.mkdir at h
  split_ifs at h
  obtain rfl := Except.ok.inj h
  exact .of_eq data_withDirectories rfl

/-- A file that is opened stands as it was. -/
theorem same_create (h : fs.create p e = .ok fs') (hq : q ≠ p ∨ fs.data q ≠ none) : Same lib q fs fs' := by
  unfold FileSystem.create at h
  split at h
  · obtain rfl := Except.ok.inj h
    exact .refl
  · cases h
  · rename_i hnone
    split_ifs at h
    obtain rfl := Except.ok.inj h
    refine same_write fun hqp => ?_
    exact hq.elim (absurd hqp) fun hd => hd (hqp ▸ data_of_none hnone)

theorem same_truncate (h : fs.truncate p = .ok fs') (hq : q ≠ p) : Same lib q fs fs' := by
  obtain ⟨created, hcreate, rfl⟩ := map_eq_ok h
  exact (same_create hcreate (.inl hq)).trans (same_write hq)

theorem same_unlink (h : fs.unlink p = .ok fs') (hq : q ≠ p) : Same lib q fs fs' := by
  unfold FileSystem.unlink at h
  split at h
  · cases h
  · obtain rfl := Except.ok.inj h
    exact .of_eq (data_remove_of_ne hq) rfl

theorem replace_ok (h : fs.replace p q = .ok fs') : ∃ d, fs.data p = some d ∧ fs'.data q = some d ∧
    fs'.log q = fs.log q ∧ ∀ r, r ≠ p → r ≠ q → Same lib r fs fs' := by
  have hrename : ∀ d, fs.entry p = some (.file d) → fs' = (fs.remove p).write q d →
      ∃ d, fs.data p = some d ∧ fs'.data q = some d ∧ fs'.log q = fs.log q ∧
        ∀ r, r ≠ p → r ≠ q → Same lib r fs fs' := by
    rintro d hp rfl
    refine ⟨d, by rw [FileSystem.data, hp], data_write_self, rfl, fun r hrp hrq => .of_eq ?_ rfl⟩
    rw [data_write_of_ne hrq, data_remove_of_ne hrp]
  unfold FileSystem.replace at h
  split at h
  · rename_i d _ hp _
    exact hrename d hp (Except.ok.inj h).symm
  · rename_i d hp _
    exact hrename d hp (Except.ok.inj h).symm
  · cases h
  · cases h

end FileSystem

/-! ## Operations -/

section Rules

open FileSystem

variable {lib : SqliteLibrary} {P : FileSystem → Prop} {α : Type} {Q : Except PyException α → FileSystem → Prop}
  {w : FileSystem} {p q : PyPath}

theorem FileAnswer.guard_ok {β : Type} {o : FileAnswer} {x : Except PyException β} {b : β} (h : o.guard x = .ok b) :
    x = .ok b := by
  unfold FileAnswer.guard at h
  split at h
  · cases h
  · exact h

theorem FileAnswer.commit_ok {o : FileAnswer} {fs fs' : FileSystem} {x : Except PyException FileSystem} {u : Unit}
    (h : o.commit fs x = (.ok u, fs')) : x = .ok fs' := by
  unfold FileAnswer.commit at h
  split at h
  · rename_i made hguard
    rw [FileAnswer.guard_ok hguard, (Prod.mk.inj h).2]
  · cases (Prod.mk.inj h).1

theorem FileAnswer.commit_error {o : FileAnswer} {fs fs' : FileSystem} {x : Except PyException FileSystem}
    {e : PyException} (h : o.commit fs x = (.error e, fs')) : fs' = fs := by
  unfold FileAnswer.commit at h
  split at h
  · cases (Prod.mk.inj h).1
  · exact (Prod.mk.inj h).2.symm

/-- An operation that only looks: it returns `x` or raises, and nothing changes. -/
theorem durable_answered {op : FileOp} {x : Except PyException op.Value} {f : op.Value → Files α}
    (hexec : ∀ o, op.exec lib o w = (o.guard x, w)) (hP : P w)
    (hok : ∀ a, x = .ok a → (fileSystem lib).Durable P Q (f a) w) (herr : ∀ e, Q (.error e) w) :
    (fileSystem lib).Durable P Q (file op >>= f) w := by
  refine Machine.Durable.issue (T := FileOp.Value) hP (fun o a w' h => ?_) fun o e w' h => ?_
  · obtain ⟨ha, rfl⟩ := Prod.mk.inj ((hexec o).symm.trans h)
    exact hok a (FileAnswer.guard_ok ha)
  · rw [← (Prod.mk.inj ((hexec o).symm.trans h)).2]
    exact herr e

/-- An operation that changes the files as `x` says, or raises and changes nothing. -/
theorem durable_committed {op : FileOp} {x : Except PyException FileSystem} {f : op.Value → Files α}
    (hdone : ∀ o u w', op.exec lib o w = (.ok u, w') → x = .ok w')
    (hfailed : ∀ o e w', op.exec lib o w = (.error e, w') → w' = w) (hP : P w)
    (hok : ∀ u w', x = .ok w' → (fileSystem lib).Durable P Q (f u) w') (herr : ∀ e, Q (.error e) w) :
    (fileSystem lib).Durable P Q (file op >>= f) w := by
  refine Machine.Durable.issue (T := FileOp.Value) hP (fun o u w' h => hok u w' (hdone o u w' h)) fun o e w' h => ?_
  rw [hfailed o e w' h]
  exact herr e

theorem durable_isFile {f : Bool → Files α} (hP : P w) (hok : (fileSystem lib).Durable P Q (f (w.data p).isSome) w)
    (herr : ∀ e, Q (.error e) w) : (fileSystem lib).Durable P Q (isFile p >>= f) w :=
  durable_answered (fun _ => rfl) hP (fun _ hb => Except.ok.inj hb ▸ hok) herr

theorem durable_pathExists {f : Bool → Files α} (hP : P w)
    (hok : (fileSystem lib).Durable P Q (f (w.entry p).isSome) w) (herr : ∀ e, Q (.error e) w) :
    (fileSystem lib).Durable P Q (pathExists p >>= f) w :=
  durable_answered (fun _ => rfl) hP (fun _ hb => Except.ok.inj hb ▸ hok) herr

theorem durable_fileDigest {f : String → Files α} (hP : P w)
    (hok : ∀ d, w.data p = some d → (fileSystem lib).Durable P Q (f (lib.digest d)) w) (herr : ∀ e, Q (.error e) w) :
    (fileSystem lib).Durable P Q (fileDigest p >>= f) w := by
  refine durable_answered (fun _ => rfl) hP (fun digest hdigest => ?_) herr
  obtain ⟨d, hread, rfl⟩ := map_eq_ok hdigest
  exact hok d (read_ok hread)

theorem durable_unlink {f : Unit → Files α} (hP : P w)
    (hok : ∀ w', w.unlink p = .ok w' → (fileSystem lib).Durable P Q (f ()) w')
    (herr : ∀ e, Q (.error e) w) : (fileSystem lib).Durable P Q (file (.unlink p) >>= f) w :=
  durable_committed (fun _ _ _ h => FileAnswer.commit_ok h) (fun _ _ _ h => FileAnswer.commit_error h) hP
    (fun _ => hok) herr

/-! ## Checks and copies -/

/-- The files but one are as they were. -/
def SameBut (lib : SqliteLibrary) (t : PyPath) (w w' : FileSystem) : Prop := ∀ q, q ≠ t → Same lib q w w'

theorem SameBut.refl {t : PyPath} : SameBut lib t w w := fun _ _ => .refl

theorem SameBut.trans {t : PyPath} {w w' w'' : FileSystem} (h : SameBut lib t w w') (h' : SameBut lib t w' w'') :
    SameBut lib t w w'' := fun q hq => (h q hq).trans (h' q hq)

/-- What a connection leaves: a file that stood is as it was, and no other changes. -/
def Connected (lib : SqliteLibrary) (p : PyPath) (w w' : FileSystem) : Prop :=
  ∀ q, q ≠ p ∨ w.data q ≠ none → Same lib q w w'

theorem Connected.sameBut {w' : FileSystem} (h : Connected lib p w w') : SameBut lib p w w' := fun q hq => h q (.inl hq)

theorem Connected.all {w' : FileSystem} (h : Connected lib p w w') (hd : w.data p ≠ none) (q : PyPath) :
    Same lib q w w' := by
  by_cases hq : q = p
  · exact h q (.inr (hq ▸ hd))
  · exact h q (.inl hq)

theorem durable_connect {f : Unit → Files α} (hP : P w)
    (hok : ∀ w', Connected lib p w w' → (fileSystem lib).Durable P Q (f ()) w')
    (herr : ∀ e w', (∀ q, Same lib q w w') → Q (.error e) w') :
    (fileSystem lib).Durable P Q (file (.connect p) >>= f) w := by
  refine Machine.Durable.issue (T := FileOp.Value) hP (fun o u w' h => hok w' fun q hq => ?_) fun o e w' h => ?_
  · have hsettled : Same lib q w (w.settle lib p o) := same_settle o
    exact hsettled.trans (same_create (FileAnswer.commit_ok h) (hq.imp_right hsettled.stands))
  · rw [FileAnswer.commit_error h]
    exact herr e _ fun q => same_settle o

/-- The check of a file changes no database. -/
theorem durable_integrity (hfile : w.data p ≠ none) (hP : ∀ w', (∀ q, Same lib q w w') → P w') :
    (fileSystem lib).Durable P (fun x w' => (∀ q, Same lib q w w') ∧
      ∀ check, x = .ok check → ∃ d, w.holds lib p = some d ∧ lib.integrityCheck d = .ok check) (integrity p) w := by
  unfold integrity
  refine durable_connect (hP w fun _ => .refl) (fun w₁ hw₁ => ?_) fun e w' h => ⟨h, fun _ h => by cases h⟩
  have hw₁ : ∀ q, Same lib q w w₁ := hw₁.all hfile
  refine Machine.Durable.last (Machine.Durable.issue (T := FileOp.Value) (hP w₁ hw₁) (fun o check w' h => ?_)
    fun o e w' h => ?_)
  · obtain ⟨hcheck, rfl⟩ := Prod.mk.inj h
    obtain ⟨d, hd, hcheck⟩ := except_bind_eq_ok.mp (FileAnswer.guard_ok hcheck)
    refine ⟨fun q => (hw₁ q).trans (same_settle o), fun check' hcheck' => ⟨d, ?_, Except.ok.inj hcheck' ▸ hcheck⟩⟩
    rw [← (hw₁ p).holds]
    exact readDatabase_ok hd
  · rw [← (Prod.mk.inj h).2]
    exact ⟨fun q => (hw₁ q).trans (same_settle o), fun _ h => by cases h⟩

/-- What a copy leaves: only its target is another, and when it returns it is the copy of the database of its source,
without a log. -/
structure Copied (lib : SqliteLibrary) (s t : PyPath) (w : FileSystem) (x : Except PyException Unit) (w' : FileSystem) :
    Prop where
  same : SameBut lib t w w'
  copy : x = .ok () → ∃ copy, w'.data t = some copy ∧ w'.log t = [] ∧
    (s ≠ t → ∃ d, w.holds lib s = some d ∧ lib.copyOf d = .ok copy)

theorem durable_copyDatabase {s t : PyPath} (hsource : s = t ∨ w.data s ≠ none)
    (hP : ∀ w', SameBut lib t w w' → P w') :
    (fileSystem lib).Durable P (Copied lib s t w) (copyDatabase s t) w := by
  have hraised : ∀ {w' : FileSystem} (e : PyException), SameBut lib t w w' → Copied lib s t w (.error e) w' :=
    fun e h => ⟨h, fun h => by cases h⟩
  unfold copyDatabase
  refine durable_connect (hP w .refl) (fun w₁ hw₁ => ?_) fun e w' h => hraised e fun q _ => h q
  have hw₁ : SameBut lib t w w₁ := by
    rcases hsource with rfl | hd
    · exact hw₁.sameBut
    · exact fun q _ => hw₁.all hd q
  refine durable_connect (hP w₁ hw₁) (fun w₂ hw₂ => ?_) fun e w' h => hraised e (hw₁.trans fun q _ => h q)
  have hw₂ : SameBut lib t w w₂ := hw₁.trans hw₂.sameBut
  have hbegun : ∀ o : FileAnswer, SameBut lib t w ((w₂.settle lib s o).put t o.data o.log) := fun o =>
    hw₂.trans fun q hq => (same_settle o).trans (same_put hq)
  refine Machine.Durable.issue (T := FileOp.Value) (hP w₂ hw₂) (fun o _ w₃ h => ?_) fun o e w₃ h => ?_
  · obtain rfl := (Prod.mk.inj h).2
    refine Machine.Durable.last (Machine.Durable.issue (T := FileOp.Value) (hP _ (hbegun o)) (fun o' _ w₄ h => ?_)
      fun o' e w₄ h => ?_)
    · obtain ⟨copy, hcopy, rfl⟩ := map_eq_ok (FileAnswer.commit_ok h)
      obtain ⟨d, hread, hcopy⟩ := except_bind_eq_ok.mp hcopy
      refine ⟨(hbegun o).trans fun q hq => (same_settle o').trans (same_put hq), fun _ =>
        ⟨copy, data_write_self, log_put_self, fun hne => ⟨d, ?_, hcopy⟩⟩⟩
      rw [← (hbegun o s hne).holds]
      exact readDatabase_ok hread
    · rw [FileAnswer.commit_error h]
      exact hraised e ((hbegun o).trans fun q _ => same_settle o')
  · obtain rfl := (Prod.mk.inj h).2
    exact hraised e (hbegun o)

/-! ## One backup -/

/-- Every file that stands is as it was. -/
def KeepsFiles (lib : SqliteLibrary) (w w' : FileSystem) : Prop := ∀ q, w.data q ≠ none → Same lib q w w'

theorem KeepsFiles.refl : KeepsFiles lib w w := fun _ _ => .refl

theorem KeepsFiles.trans {w w' w'' : FileSystem} (h : KeepsFiles lib w w') (h' : KeepsFiles lib w' w'') :
    KeepsFiles lib w w'' := fun q hd => (h q hd).trans (h' q ((h q hd).stands hd))

theorem SameBut.keeps {t : PyPath} {w w' : FileSystem} (h : SameBut lib t w w') (ht : w.data t = none) :
    KeepsFiles lib w w' := fun q hd => h q fun hq => hd (hq ▸ ht)

/-- An artifact and its file: a checked copy of the database of the source, with its digest, and no log. -/
structure Backed (lib : SqliteLibrary) (target source : PyPath) (a : BackupArtifact) (w : FileSystem) : Prop where
  source_eq : a.source = source.str
  backup_eq : a.backup = (backupPath target a.name).str
  copied : ∃ d copy, w.holds lib source = some d ∧ lib.copyOf d = .ok copy ∧
    w.data (backupPath target a.name) = some copy ∧ w.log (backupPath target a.name) = [] ∧
    lib.digest copy = a.sha256 ∧ lib.integrityCheck copy = .ok (PyText.utf8 "ok")

theorem Backed.keeps {target source : PyPath} {a : BackupArtifact} {w w' : FileSystem}
    (h : Backed lib target source a w) (hkeeps : KeepsFiles lib w w') : Backed lib target source a w' := by
  obtain ⟨d, copy, hd, hcopy, hbackup, hlog, hrest⟩ := h.copied
  have hsource : w.data source ≠ none := by
    rw [Ne, ← @holds_eq_none w source lib, hd]
    exact Option.some_ne_none d
  obtain ⟨hdata', hlog'⟩ := (hkeeps (backupPath target a.name) (by simp [hbackup])).settled hlog
  exact ⟨h.source_eq, h.backup_eq, d, copy, (hkeeps source hsource).holds.trans hd, hcopy, hdata'.trans hbackup, hlog',
    hrest⟩

/-- The artifact of a database of the set. -/
def BackedBy (lib : SqliteLibrary) (target : PyPath) (w : FileSystem) (database : PyText × PyText)
    (a : BackupArtifact) : Prop :=
  a.name = database.1.strip ∧ ∃ source, lib.resolve database.2 = .ok source ∧ Backed lib target source a w

theorem durable_backupDatabase {target : PyPath} {name sourceValue : PyText} (hP : ∀ w', KeepsFiles lib w w' → P w') :
    (fileSystem lib).Durable P (fun x w' => KeepsFiles lib w w' ∧
      ∀ a, x = .ok a → BackedBy lib target w' (name, sourceValue) a)
      (backupDatabase lib target name.strip sourceValue) w := by
  have hself : P w := hP w .refl
  have hraised : ∀ {w' : FileSystem} (e : PyException), KeepsFiles lib w w' → KeepsFiles lib w w' ∧
      ∀ a, Except.error e = Except.ok a → BackedBy lib target w' (name, sourceValue) a :=
    fun e h => ⟨h, fun a h => by cases h⟩
  unfold backupDatabase
  refine Machine.Durable.ofExcept (fun source hsource => ?_) fun e _ => hraised e .refl
  refine durable_isFile hself ?_ fun e => hraised e .refl
  by_cases hfile : (w.data source).isSome = false
  · rw [if_pos hfile]
    exact hraised _ .refl
  rw [if_neg hfile]
  have hd : w.data source ≠ none := by simpa using hfile
  refine durable_pathExists hself ?_ fun e => hraised e .refl
  by_cases hexists : (w.entry (backupPath target name.strip)).isSome = true
  · rw [if_pos hexists]
    exact hraised _ .refl
  rw [if_neg hexists]
  have hnone : w.data (backupPath target name.strip) = none := data_of_none (by simpa using hexists)
  have hne : source ≠ backupPath target name.strip := fun h => hd (h ▸ hnone)
  refine (durable_copyDatabase (.inr hd) fun w' h => hP w' (h.keeps hnone)).bind (fun _ w₁ hcopied => ?_)
    fun e w' hcopied => hraised e (hcopied.same.keeps hnone)
  have hkeeps := hcopied.same.keeps hnone
  obtain ⟨copy, hcopy, hlog, hof⟩ := hcopied.copy rfl
  obtain ⟨d, hd, hof⟩ := hof hne
  have hstands : w₁.data (backupPath target name.strip) ≠ none := by simp [hcopy]
  have hsame : ∀ {w'}, (∀ q, Same lib q w₁ w') → KeepsFiles lib w w' := fun h => hkeeps.trans fun q _ => h q
  refine (durable_integrity hstands fun w' h => hP w' (hsame h)).bind (fun check w₂ hcheck => ?_)
    fun e w' h => hraised e (hsame h.1)
  obtain ⟨hsame₂, hcheck⟩ := hcheck
  have hkeeps₂ := hsame hsame₂
  by_cases hok : check ≠ PyText.utf8 "ok"
  · rw [if_pos hok]
    refine durable_unlink (hP _ hkeeps₂) (fun w₃ hw₃ => hraised _ ?_) fun e => hraised e hkeeps₂
    exact SameBut.keeps (hcopied.same.trans fun q hq => (hsame₂ q).trans (same_unlink hw₃ hq)) hnone
  · rw [if_neg hok]
    obtain rfl : check = PyText.utf8 "ok" := by simpa using hok
    obtain ⟨copy', hholds, hcheck⟩ := hcheck _ rfl
    obtain rfl : copy = copy' := Option.some.inj ((holds_of_data hcopy hlog).symm.trans hholds)
    obtain ⟨hdata₂, hlog₂⟩ := (hsame₂ (backupPath target name.strip)).settled hlog
    refine durable_fileDigest (hP _ hkeeps₂) (fun copy' hcopy' => ?_) fun e => hraised e hkeeps₂
    obtain rfl : copy = copy' := Option.some.inj (hcopy.symm.trans (hdata₂.symm.trans hcopy'))
    refine ⟨hkeeps₂, fun a ha => ?_⟩
    obtain rfl := Except.ok.inj ha
    have hsource₂ : w₂.holds lib source = some d :=
      (hkeeps₂ source (by simpa using hfile)).holds.trans hd
    exact ⟨rfl, source, hsource, rfl, rfl, d, copy, hsource₂, hof, hcopy', hlog₂, rfl, hcheck⟩

/-- The loop: by induction on the databases, from any files. -/
theorem durable_backupDatabases {target : PyPath} (databases : List (PyText × PyText)) (names : List PyText)
    {w : FileSystem} (hP : ∀ w', KeepsFiles lib w w' → P w') :
    (fileSystem lib).Durable P (fun x w' => KeepsFiles lib w w' ∧
      ∀ artifacts, x = .ok artifacts → List.Forall₂ (BackedBy lib target w') databases artifacts)
      (backupDatabases lib target databases names) w := by
  induction databases generalizing names w with
  | nil => exact ⟨.refl, fun artifacts h => Except.ok.inj h ▸ .nil⟩
  | cons database databases ih =>
    obtain ⟨name, sourceValue⟩ := database
    unfold backupDatabases
    split_ifs with hname
    · exact ⟨.refl, fun artifacts h => by cases h⟩
    refine (durable_backupDatabase hP).bind (fun a w₁ h₁ => ?_) fun e w' h => ⟨h.1, fun artifacts h => by cases h⟩
    obtain ⟨hkeeps₁, hbacked⟩ := h₁
    refine (ih (name.strip :: names) fun w' h => hP w' (hkeeps₁.trans h)).bind (fun artifacts w₂ h₂ => ?_)
      fun e w' h => ⟨hkeeps₁.trans h.1, fun artifacts h => by cases h⟩
    obtain ⟨hkeeps₂, hrest⟩ := h₂
    refine ⟨hkeeps₁.trans hkeeps₂, fun all hall => ?_⟩
    obtain rfl := Except.ok.inj hall
    obtain ⟨hname, source, hsource, hbacked⟩ := hbacked a rfl
    exact .cons ⟨hname, source, hsource, hbacked.keeps hkeeps₂⟩ (hrest artifacts rfl)

end Rules

end Rpr
