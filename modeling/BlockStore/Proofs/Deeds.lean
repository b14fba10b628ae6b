import BlockStore.Proofs.Commands
import BlockStore.Proofs.Files
import BlockStore.Proofs.Hosting

/-!
# What command lines do

A command line that is about keys makes one call on the volume in the file of its device, which is mounted
for it and written back after it; and one that checks makes a check. What is seen of the command follows
from the reply, and what it leaves is the workspace with another image in the file.

The value of a key comes from the standard input or from a file, and the settings of the user tell whether
the volume is repaired as it is mounted. Nothing else in the workspace is looked at.

## Main definitions

* `CommandLine`: a command line with what it finds besides the files.
* `Deed`: a call or a check; `Request.deed?` is that of a request.
* `CommandLine.Asks`: a command line asks for a deed on the file at a place.
* `Call.outcome`, `checkOutcome`: what is seen of it.

## Main results

* `CommandLine.run_call`, `run_check`: command lines on a file on whose image nothing is amiss.
-/

namespace BlockStore

/-! ### What is asked for -/

/-- A command line, with what it finds besides the files. -/
structure CommandLine where
  /-- The environment. -/
  env : String → Option String
  /-- The home directory of the user, if there is one. -/
  home : Option String
  /-- The length up to which a file can grow. -/
  limit : Nat
  /-- The standard input. -/
  input : ByteArray
  /-- The time. -/
  now : Timestamp
  /-- The arguments. -/
  args : List String

/-- What a command line finds besides the files. -/
def CommandLine.session (c : CommandLine) : Session (StateM Workspace) :=
  ⟨c.env, c.home, c.limit, pure c.input, c.now⟩

/-- The settings that a command line finds in a workspace. -/
def CommandLine.config (c : CommandLine) (w : Workspace) : Config := w.config c.home c.env

/-- Carries out a command line in a workspace. -/
def CommandLine.run (c : CommandLine) (w : Workspace) : Outcome × Workspace :=
  runCommand c.session c.args w

/-- What a command line does to a volume. -/
inductive Deed where
  /-- It makes a call. What it is told it prints, or writes to a file. -/
  | call (c : Call) (output : Option String)
  /-- It checks the volume. -/
  | check (repair json : Bool)

/-- What a request is, of those that are about keys and tell no more than values and keys, and those that
check. A value comes from the standard input or from a file, which must be there. -/
def Request.deed? (request : Request) (input : ByteArray) (now : Timestamp) (w : Workspace) : Option Deed :=
  match request with
  | .put key none => some (.call (.put key input now now) none)
  | .put key (some file) =>
    match w.read file with
    | .ok image => some (.call (.put key image.toBytes now now) none)
    | .error _ => none
  | .get key output => some (.call (.get key) output)
  | .remove key => some (.call (.remove key) none)
  | .rename old new => some (.call (.rename old new) none)
  | .list false => some (.call .list none)
  | .check repair json => some (.check repair json)
  | _ => none

/-- If the deed writes to a file, that can be written, and it is not the one at the place. -/
def Deed.Sparing (w : Workspace) (place : List String) : Deed → Prop
  | .call _ (some file) => ∀ image, ∃ u, w.write file image = .ok u ∧
    ∀ im, w.HasFile place im → u.HasFile place im
  | _ => True

/-- The command line is understood, its device is the file at the place, and the deed is what it asks for,
which spares this file. -/
def CommandLine.Asks (c : CommandLine) (w : Workspace) (place : List String) (deed : Deed) : Prop :=
  ∃ invocation path, Invocation.parse c.args = .ok invocation ∧
    invocation.options.devicePath (c.config w) = some path ∧ w.resolve path = .ok place ∧
    invocation.request.deed? c.input c.now w = some deed ∧ deed.Sparing w place

/-- No request creates a key without storing a value, only a value is written to a file, and only a check is
asked for as one. -/
theorem Request.of_deed? {request : Request} {input : ByteArray} {now : Timestamp} {w : Workspace}
    {deed : Deed} (h : request.deed? input now w = some deed) :
    match deed with
    | .call c output => (∀ key t, c ≠ .create key t) ∧
      ∀ file, output = some file → ∃ key, c = .get key ∧ request = .get key (some file)
    | .check repair json => request = .check repair json := by
  cases request with
  | put key file =>
    cases file with
    | none =>
      cases h
      exact ⟨by rintro _ _ ⟨⟩, by rintro _ ⟨⟩⟩
    | some file =>
      simp only [deed?] at h
      split at h <;> cases h
      exact ⟨by rintro _ _ ⟨⟩, by rintro _ ⟨⟩⟩
  | get key output =>
    cases h
    refine ⟨by rintro _ _ ⟨⟩, ?_⟩
    rintro file rfl
    exact ⟨key, rfl, rfl⟩
  | remove key =>
    cases h
    exact ⟨by rintro _ _ ⟨⟩, by rintro _ ⟨⟩⟩
  | rename old new =>
    cases h
    exact ⟨by rintro _ _ ⟨⟩, by rintro _ ⟨⟩⟩
  | list long =>
    cases long <;> cases h
    exact ⟨by rintro _ _ ⟨⟩, by rintro _ ⟨⟩⟩
  | check repair json =>
    cases h
    rfl
  | _ => cases h

theorem CommandLine.Asks.ne_create {c : CommandLine} {w : Workspace} {place : List String} {call : Call}
    {output : Option String} (h : c.Asks w place (.call call output)) (key : Key) (t : Timestamp) :
    call ≠ .create key t := by
  obtain ⟨_, _, -, -, -, hdeed, -⟩ := h
  exact (Request.of_deed? hdeed).1 key t

/-! ### What is seen of it -/

/-- What is seen of a command line that asks for a deed: what it prints, and what is then in the file that it
was to write to. -/
def CommandLine.seen (c : CommandLine) (w : Workspace) (deed : Deed) : Outcome :=
  let (outcome, u) := c.run w
  match deed with
  | .call _ (some file) =>
    if outcome.code = 0 then
      match u.read file with
      | .ok image => { outcome with output := outcome.output ++ image.toBytes }
      | .error _ => outcome
    else outcome
  | _ => outcome

/-- What is printed of a reply. -/
def Reply.printed : Reply → ByteArray
  | .done => .empty
  | .found _ => .empty
  | .value b => b.bytes
  | .keys ks => (Report.lines (ks.map Key.encode)).toUTF8

/-- The failure of a call. That a value is too large is noticed before the volume is asked. -/
def Call.failure (c : Call) (e : StoreError) : Failure :=
  match c with
  | .put _ data _ _ =>
    if blockSize < data.size then ⟨s!"value is larger than one block ({blockSize} bytes)", []⟩
    else .ofTexts none (Failure.textsOf e)
  | _ => .ofTexts none (Failure.textsOf e)

/-- What is to be seen of a command that makes a call, by the reply of the volume. -/
def Call.outcome (c : Call) : Except StoreError Reply → Outcome
  | .ok reply => ⟨0, reply.printed, none⟩
  | .error e => ⟨1, .empty, some (c.failure e).render⟩

/-- What is to be seen of a check that finds nothing. -/
def checkOutcome (repair json : Bool) : Outcome :=
  ⟨0, (if json then (Report.checkJson (.clean repair)).pretty ++ "\n"
    else Report.lines ["clean"]).toUTF8, none⟩

/-! ### The parts of the commands -/

namespace Job

variable {α : Type} {sb : Superblock} {im : Image} {w : Workspace} {place : List String} {path : String}
  {v u : Volume} {out out' : ByteArray}

theorem discard_of_ok {act : Job α} {a : α} {w' : Workspace} (h : act out w = ((.ok a, out'), w')) :
    (discard act : Job Unit) out w = ((.ok (), out'), w') := by
  show (act >>= fun _ => pure ()) out w = _
  exact bind_of_ok h

theorem discard_of_error {act : Job α} {e : Failure} {w' : Workspace}
    (h : act out w = ((.error e, out'), w')) :
    (discard act : Job Unit) out w = ((.error e, out'), w') := by
  show (act >>= fun _ => pure ()) out w = _
  exact bind_of_error h

/-- A volume on whose image nothing is amiss is mounted, and its file stays as it is. -/
theorem mountFile_of_hosts (h : sb.Hosts im) (limit : Nat) (hpath : w.resolve path = .ok place)
    (hfile : w.HasFile place im) (repair : Bool) :
    ∃ v, v.Opened sb im ∧
      ∀ out, (mountFile limit path repair : Job Volume) out w = ((.ok v, out), w) := by
  obtain ⟨v, hmount, hv⟩ := Volume.exists_opened h limit repair
  have hback : w.writtenBack path (.ofFile limit im) v.device = .ok w := by
    rw [Workspace.writtenBack, hv.log]
    rfl
  refine ⟨v, hv, fun out => ?_⟩
  rw [mountFile]
  refine (bind_of_ok ?_).trans (onFile_of_ok hmount hback out)
  rw [load_apply, Workspace.read_eq hpath hfile]

/-- What edits have made of the image of a volume is what is written back. -/
theorem writtenBack_of_edited (hv : v.Opened sb im) (hpath : w.resolve path = .ok place)
    (hfile : w.HasFile place im) (hu : Volume.Edited sb v u) :
    w.writtenBack path v.device u.device = .ok (w.withFile place u.device.image) := by
  rw [Workspace.writtenBack]
  split
  · exact Workspace.write_eq hpath hfile _
  · have hsame := hu.image_eq_or_log.resolve_right ‹_›
    rw [hsame, hv.image, hfile.withFile_eq]

/-- A call that changes something, on a volume that was mounted for it. -/
theorem onVolume_apply {act : VolumeM α} {c : Call} (hv : v.Opened sb im)
    (hpath : w.resolve path = .ok place) (hfile : w.HasFile place im)
    (hc : c.run = act >>= fun _ => pure .done) (out : ByteArray) :
    (c.reply v = .ok .done ∧ ∃ a, (onVolume path v act : Job α) out w =
        ((.ok a, out), w.withFile place (c.after v).device.image)) ∨
      ∃ e, c.reply v = .error e ∧ (onVolume path v act : Job α) out w =
        ((.error (.ofTexts none (Failure.textsOf e)), out), w.withFile place (c.after v).device.image) := by
  have hback := writtenBack_of_edited hv hpath hfile (hv.shows.edited_after c)
  cases hrun : act v with
  | ok a u =>
    obtain ⟨hreply, hafter⟩ := Volume.reply_of_ok hc hrun
    rw [hafter] at hback ⊢
    exact .inl ⟨hreply, a, onVolume_of_ok hrun hback out⟩
  | error e u =>
    obtain ⟨hreply, hafter⟩ := Volume.reply_of_error hc hrun
    rw [hafter] at hback ⊢
    exact .inr ⟨e, hreply, onVolume_of_error hrun hback out⟩

/-- Keys are printed one after the other. -/
theorem listEntries_map_ok (v : Volume) (items : List (Nat × Key)) (out : ByteArray) (w : Workspace) :
    (listEntries v false (items.map .ok) : Job Unit) out w =
      ((.ok (), out ++ (Report.lines ((items.map Prod.snd).map Key.encode)).toUTF8), w) := by
  induction items generalizing out with
  | nil =>
    show ((Except.ok (), out), w) = ((Except.ok (), out ++ ByteArray.empty), w)
    rw [ByteArray.append_empty]
  | cons item items ih =>
    refine (bind_of_ok (ofStore_ok none item out w)).trans ?_
    refine (bind_of_ok (print_apply _ out w)).trans ?_
    refine (ih _).trans ?_
    rw [ByteArray.append_assoc, Report.lines, Report.lines]
    simp only [List.map_cons, String.join_cons, String.toUTF8, String.toByteArray_append,
      ByteArray.append_assoc]

end Job

/-! ### The commands -/

/-- The result of a command that makes a call, and what it has printed. -/
def Call.result (c : Call) : Except StoreError Reply → Except Failure Unit × ByteArray
  | .ok reply => (.ok (), reply.printed)
  | .error e => (.error (c.failure e), .empty)

/-- What is seen does not depend on the time. -/
theorem Call.outcome_timeless (c : Call) : c.timeless.outcome = c.outcome := by
  funext reply
  cases c <;> cases reply <;> rfl

section Commands

variable {sb : Superblock} {im : Image} {w : Workspace} {place : List String} {path : String} {v : Volume}
  {now : Timestamp} {line : CommandLine} {limit : Nat}

/-- A value that is too large is not stored, by the command or by the volume. -/
theorem put_of_large {data : ByteArray} (hlarge : blockSize < data.size) (key : Key)
    (created stored : Timestamp) (v : Volume) :
    (Call.put key data created stored).reply v = .error (.valueTooLarge data.size) ∧
      (Call.put key data created stored).after v = v := by
  have hrefused : Volume.put key data created stored v = .error (.valueTooLarge data.size) v := by
    rw [Volume.put_eq, if_pos hlarge]
    rfl
  exact Volume.reply_of_error rfl hrefused

/-- The value is stored that has been read. -/
theorem storeImage_apply (hv : v.Opened sb im) (hpath : w.resolve path = .ok place)
    (hfile : w.HasFile place im) (key : Key) (image : Image) :
    (do
      if blockSize < image.size then
        throw ⟨s!"value is larger than one block ({blockSize} bytes)", []⟩
      discard (onVolume path v (Volume.put key image.toBytes now now)) : Job Unit) .empty w =
      ((Call.put key image.toBytes now now).result ((Call.put key image.toBytes now now).reply v),
        w.withFile place ((Call.put key image.toBytes now now).after v).device.image) := by
  by_cases hlarge : blockSize < image.size
  · obtain ⟨hreply, hafter⟩ := put_of_large (image.size_toBytes.symm ▸ hlarge) key now now v
    rw [if_pos hlarge, hreply, hafter, hv.image, hfile.withFile_eq, Call.result, Call.failure,
      Image.size_toBytes, if_pos hlarge]
    rfl
  · rw [if_neg hlarge]
    rcases Job.onVolume_apply (c := .put key image.toBytes now now) hv hpath hfile rfl .empty with
      ⟨hreply, _, hrun⟩ | ⟨e, hreply, hrun⟩
    · refine (Job.discard_of_ok hrun).trans ?_
      rw [hreply]
      rfl
    · refine (Job.discard_of_error hrun).trans ?_
      rw [hreply, Call.result, Call.failure, Image.size_toBytes, if_neg hlarge]

theorem runPut_apply (hv : v.Opened sb im) (hpath : w.resolve path = .ok place)
    (hfile : w.HasFile place im) {key : Key} {file : Option String} {c : Call}
    (hdeed : (Request.put key file).deed? line.input line.now w = some (.call c none)) :
    (runPut line.session path v key file : Job Unit) .empty w =
      (c.result (c.reply v), w.withFile place (c.after v).device.image) := by
  cases file with
  | none =>
    cases hdeed
    conv_rhs => rw [← Image.toBytes_ofBytes line.input]
    refine (Job.bind_of_ok ?_).trans (storeImage_apply hv hpath hfile key (.ofBytes line.input))
    rfl
  | some file =>
    simp only [Request.deed?] at hdeed
    cases hread : w.read file with
    | error e =>
      rw [hread] at hdeed
      cases hdeed
    | ok image =>
      rw [hread] at hdeed
      cases hdeed
      refine (Job.bind_of_ok ?_).trans (storeImage_apply hv hpath hfile key image)
      rw [Job.load_apply, hread]

/-- A call that changes something is made. -/
theorem runChange_apply {act : VolumeM Unit} {c : Call} (hv : v.Opened sb im)
    (hpath : w.resolve path = .ok place) (hfile : w.HasFile place im)
    (hc : c.run = act >>= fun _ => pure .done)
    (hfailure : ∀ e, c.failure e = .ofTexts none (Failure.textsOf e)) :
    (onVolume path v act : Job Unit) .empty w =
      (c.result (c.reply v), w.withFile place (c.after v).device.image) := by
  rcases Job.onVolume_apply hv hpath hfile hc .empty with ⟨hreply, _, hrun⟩ | ⟨e, hreply, hrun⟩
  · rw [hrun, hreply]
    rfl
  · rw [hrun, hreply, Call.result, hfailure]

theorem runGet_of_error {key : Key} {e : StoreError} (h : v.get key = .error e) (output : Option String)
    (w : Workspace) : (runGet v key output : Job Unit) .empty w =
      ((.error (.ofTexts none (Failure.textsOf e)), .empty), w) := by
  rw [runGet, h]
  exact Job.bind_of_error (Job.ofStore_error none e .empty w)

/-- A value is written to a file. -/
theorem runGet_of_write {key : Key} {b : Block} {file : String} {u : Workspace} (h : v.get key = .ok b)
    (hwrite : w.write file (.ofBytes b.bytes) = .ok u) :
    (runGet v key (some file) : Job Unit) .empty w = ((.ok (), .empty), u) := by
  rw [runGet, h]
  refine (Job.bind_of_ok (Job.ofStore_ok none b .empty w)).trans ?_
  refine (Job.save_apply _ file (.ofBytes b.bytes) .empty w).trans ?_
  rw [hwrite]

theorem runGet_apply (v : Volume) (key : Key) (w : Workspace) :
    (runGet v key none : Job Unit) .empty w =
      ((Call.get key).result ((Call.get key).reply v), w) := by
  obtain ⟨hreply, -⟩ := Volume.reply_of_query (c := .get key) v rfl
  rw [hreply]
  cases hget : v.get key with
  | ok b =>
    rw [runGet, hget]
    refine (Job.bind_of_ok (Job.ofStore_ok none b .empty w)).trans ?_
    refine (Job.printBytes_apply b.bytes .empty w).trans ?_
    rw [ByteArray.empty_append]
    rfl
  | error e => exact runGet_of_error hget none w

theorem listEntries_apply (hv : v.Opened sb im) (w : Workspace) :
    (listEntries v false v.entries : Job Unit) .empty w =
      (Call.list.result (Call.list.reply v), w) := by
  obtain ⟨hreply, -⟩ := Volume.reply_of_query (c := .list) v rfl
  rw [hreply, hv.shows.list_eq trivial, hv.shows.entries_eq trivial, Job.listEntries_map_ok,
    ByteArray.empty_append, List.map_map (g := Prod.snd)]
  rfl

/-- A check of a volume on which there is nothing to be found. -/
theorem runCheck_apply (h : sb.Hosts im) (hpath : w.resolve path = .ok place)
    (hfile : w.HasFile place im) (repair json : Bool) :
    (runCheck limit path repair json : Job Unit) .empty w =
      ((.ok (), (checkOutcome repair json).output), w) := by
  obtain ⟨v, hv, hmount⟩ := Job.mountFile_of_hosts h limit hpath hfile false
  obtain ⟨u, hrun, -, himage, hlog⟩ := hv.shows.check_idle trivial (h.exact.tidy h.fits) repair
  have hback : w.writtenBack path v.device u.device = .ok w := by
    rw [Workspace.writtenBack, hlog, if_neg (Nat.lt_irrefl _)]
  refine (Job.bind_of_ok (hmount .empty)).trans ?_
  refine (Job.bind_of_ok (Job.onVolume_of_ok hrun hback .empty)).trans ?_
  cases json <;>
    · refine (Job.bind_of_ok (Job.print_apply _ .empty w)).trans ?_
      rw [ByteArray.empty_append]
      rfl

/-- A request that makes a call and prints what it is told, on a file on whose image nothing is amiss: the
volume is mounted for it, and the image that the call leaves is in the file afterwards. -/
theorem Request.run_of_call (h : sb.Hosts im) (hpath : w.resolve path = .ok place)
    (hfile : w.HasFile place im) {request : Request} {c : Call}
    (hdeed : request.deed? line.input line.now w = some (.call c none)) (config : Config) :
    ∃ v, v.Opened sb im ∧
      (request.run line.session config (some path) : Job Unit) .empty w =
        (c.result (c.reply v), w.withFile place (c.after v).device.image) := by
  obtain ⟨v, hv, hmount⟩ := Job.mountFile_of_hosts h line.limit hpath hfile config.repairOnMount
  refine ⟨v, hv, ?_⟩
  have hstart {f : String → Volume → Job Unit} :
      (do
        let path ← requireDevice (some path)
        f path (← mountFile line.limit path config.repairOnMount) : Job Unit) .empty w = f path v .empty w :=
    (Job.bind_of_ok (Job.pure_apply path .empty w)).trans (Job.bind_of_ok (hmount .empty))
  have hidle {c : Call} (hafter : c.after v = v) : w.withFile place (c.after v).device.image = w := by
    rw [hafter, hv.image, hfile.withFile_eq]
  cases request with
  | put key file => exact hstart.trans (runPut_apply hv hpath hfile hdeed)
  | get key output =>
    cases hdeed
    rw [hidle (Volume.reply_of_query v rfl).2]
    exact hstart.trans (runGet_apply v key w)
  | remove key =>
    cases hdeed
    exact hstart.trans (runChange_apply hv hpath hfile rfl fun _ => rfl)
  | rename old new =>
    cases hdeed
    exact hstart.trans (runChange_apply hv hpath hfile rfl fun _ => rfl)
  | list long =>
    cases long with
    | true => cases hdeed
    | false =>
      cases hdeed
      rw [hidle (Volume.reply_of_query v rfl).2]
      exact hstart.trans (listEntries_apply hv w)
  | _ => cases hdeed

end Commands

namespace CommandLine

variable {sb : Superblock} {im : Image} {w : Workspace} {place : List String} {c : CommandLine}

/-- A command line that is understood is its request, on the device that is named. -/
theorem run_apply {invocation : Invocation} {path : String} (hparse : Invocation.parse c.args = .ok invocation)
    (hdevice : invocation.options.devicePath (c.config w) = some path) :
    c.run w =
      match (invocation.request.run c.session (c.config w) (some path) : Job Unit) .empty w with
      | ((.ok (), out), u) => (⟨0, out, none⟩, u)
      | ((.error failure, out), u) => (⟨1, out, some failure.render⟩, u) := by
  rw [← hdevice]
  exact runCommand_apply hparse w

/-- A command line that asks for a call and prints what it is told, on a file on whose image nothing is
amiss: the volume is mounted for it, what is seen follows from its reply, and the image that the call leaves
is in the file afterwards. -/
theorem run_call (h : sb.Hosts im) (hfile : w.HasFile place im) {call : Call}
    (hasks : c.Asks w place (.call call none)) :
    ∃ v, v.Opened sb im ∧
      c.run w = (call.outcome (call.reply v), w.withFile place (call.after v).device.image) := by
  obtain ⟨invocation, path, hparse, hdevice, hpath, hdeed, -⟩ := hasks
  obtain ⟨v, hv, hrun⟩ := Request.run_of_call h hpath hfile hdeed (c.config w)
  refine ⟨v, hv, ?_⟩
  rw [run_apply hparse hdevice, hrun]
  cases call.reply v <;> rfl

/-- A command line that fetches a value into another file. -/
theorem seen_fetch (h : sb.Hosts im) (hfile : w.HasFile place im) {call : Call} {file : String}
    (hasks : c.Asks w place (.call call (some file))) :
    ∃ v, v.Opened sb im ∧ c.seen w (.call call (some file)) = call.outcome (call.reply v) ∧
      (c.run w).2.HasFile place (call.after v).device.image := by
  obtain ⟨invocation, path, hparse, hdevice, hpath, hdeed, hsparing⟩ := hasks
  obtain ⟨-, hfetch⟩ := Request.of_deed? hdeed
  obtain ⟨key, rfl, hrequest⟩ := hfetch file rfl
  obtain ⟨v, hv, hmount⟩ := Job.mountFile_of_hosts h c.limit hpath hfile (c.config w).repairOnMount
  obtain ⟨hreply, hafter⟩ := Volume.reply_of_query (c := .get key) v rfl
  refine ⟨v, hv, ?_⟩
  have hrun : (invocation.request.run c.session (c.config w) (some path) :
      Job Unit) .empty w = (runGet v key (some file) : Job Unit) .empty w := by
    rw [hrequest]
    exact (Job.bind_of_ok (Job.pure_apply path .empty w)).trans (Job.bind_of_ok (hmount .empty))
  rw [hreply, hafter, hv.image, seen, run_apply hparse hdevice, hrun]
  cases hget : v.get key with
  | error e =>
    rw [runGet_of_error hget]
    exact ⟨rfl, hfile⟩
  | ok b =>
    obtain ⟨u, hwrite, hkept⟩ := hsparing (.ofBytes b.bytes)
    rw [runGet_of_write hget hwrite]
    dsimp only
    rw [if_pos rfl, Workspace.read_of_write hwrite]
    dsimp only
    rw [Image.toBytes_ofBytes, ByteArray.empty_append]
    exact ⟨rfl, hkept im hfile⟩

/-- A command line that asks for a call, wherever what it is told goes to. -/
theorem seen_call (h : sb.Hosts im) (hfile : w.HasFile place im) {call : Call} {output : Option String}
    (hasks : c.Asks w place (.call call output)) :
    ∃ v, v.Opened sb im ∧ c.seen w (.call call output) = call.outcome (call.reply v) ∧
      (c.run w).2.HasFile place (call.after v).device.image := by
  cases output with
  | some file => exact c.seen_fetch h hfile hasks
  | none =>
    obtain ⟨v, hv, hrun⟩ := c.run_call h hfile hasks
    refine ⟨v, hv, ?_, ?_⟩
    · rw [seen, hrun]
    · rw [hrun]
      exact Workspace.hasFile_withFile _ _ _

/-- A command line that asks for a check, on such a file: nothing is found, and everything stays as it is. -/
theorem run_check (h : sb.Hosts im) (hfile : w.HasFile place im) {repair json : Bool}
    (hasks : c.Asks w place (.check repair json)) : c.run w = (checkOutcome repair json, w) := by
  obtain ⟨invocation, path, hparse, hdevice, hpath, hdeed, -⟩ := hasks
  have hrequest : invocation.request = .check repair json := Request.of_deed? hdeed
  have hrun : (invocation.request.run c.session (c.config w) (some path) :
      Job Unit) .empty w = ((.ok (), (checkOutcome repair json).output), w) := by
    rw [hrequest]
    exact (Job.bind_of_ok (Job.pure_apply path .empty w)).trans (runCheck_apply h hpath hfile repair json)
  rw [run_apply hparse hdevice, hrun]
  rfl

end CommandLine

end BlockStore
