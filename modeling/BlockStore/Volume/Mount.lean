import BlockStore.Volume.Check

/-!
# Mounting and formatting

## Main definitions

* `Volume.mountVisiting`, `Volume.mount`: the volume on a device, repaired first if asked to; with the
  order in which reference counts are compared left open, and in the order of the table.
* `Volume.format`: an empty volume written to a device.
-/

namespace BlockStore

namespace Volume

/-- The volume on a device. With `repair` it is checked and repaired before it is handed out, with the
reference counts compared in the order that `visit` puts the shared blocks in. The volume holds the
device; the device is the state of the action as well, for when it fails. -/
def mountVisiting (visit : List SharedBlock → List SharedBlock) (repair : Bool) : DeviceM Volume :=
  fun d =>
    match attach d with
    | .error e => .error e d
    | .ok v =>
      if repair then
        match checkVisiting visit true v with
        | .ok _ v => .ok v v.device
        | .error e v => .error e v.device
      else .ok v d

/-- The volume on a device, repaired first if asked to. -/
def mount (repair : Bool) : DeviceM Volume := mountVisiting id repair

/-- Writes an empty volume to a device and mounts it. -/
def format (layout : Layout) : DeviceM Volume := do
  discard layout.format
  mount false

end Volume

end BlockStore
