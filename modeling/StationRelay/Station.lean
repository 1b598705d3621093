import StationRelay.Binary32
import StationRelay.Bytes

/-!
# Weather stations and their readings

There are three stations, numbered from zero.  A device claims one of them by
its byte; every byte from `Station.bound` on names no station.  A reading is
what one station measured at one time, as a browser is told it.
-/

namespace StationRelay

inductive Station where
  | goe
  | wf
  | bs
  deriving DecidableEq

namespace Station

/-- Every station, in ascending order. -/
def all : List Station := [.goe, .wf, .bs]

def bound : UInt8 := 3

def toByte : Station → UInt8
  | .goe => 0
  | .wf => 1
  | .bs => 2

def ofByte? (raw : UInt8) : Option Station :=
  if raw = 0 then some .goe
  else if raw = 1 then some .wf
  else if raw = 2 then some .bs
  else none

/-- The name used when the configuration gives none. -/
def defaultName : Station → String
  | .goe => "Goe"
  | .wf => "Wf"
  | .bs => "Bs"

def toText (station : Station) : String :=
  toString station.toByte.toNat

@[simp] theorem ofByte?_toByte (station : Station) : ofByte? station.toByte = some station := by
  cases station <;> rfl

theorem ofByte?_eq_some_iff {raw : UInt8} {station : Station} :
    ofByte? raw = some station ↔ raw = station.toByte := by
  constructor
  · intro h
    unfold ofByte? at h
    split at h
    · cases h; assumption
    split at h
    · cases h; assumption
    split at h
    · cases h; assumption
    · cases h
  · rintro rfl
    exact ofByte?_toByte station

theorem mem_all (station : Station) : station ∈ all := by
  cases station <;> decide

def outOfRangeMessage (raw : UInt8) : String :=
  s!"station id {raw.toNat} is out of range (must be below {bound.toNat})"

end Station

structure PerStation (α : Type) where
  goe : α
  wf : α
  bs : α
  deriving DecidableEq

namespace PerStation

variable {α : Type}

def const (value : α) : PerStation α := ⟨value, value, value⟩

def get (table : PerStation α) : Station → α
  | .goe => table.goe
  | .wf => table.wf
  | .bs => table.bs

def set (table : PerStation α) (station : Station) (value : α) : PerStation α :=
  match station with
  | .goe => { table with goe := value }
  | .wf => { table with wf := value }
  | .bs => { table with bs := value }

theorem get_set (table : PerStation α) (station other : Station) (value : α) :
    (table.set station value).get other = if other = station then value else table.get other := by
  cases station <;> cases other <;> rfl

@[ext] theorem ext_get {table other : PerStation α}
    (h : ∀ station, table.get station = other.get station) : table = other := by
  cases table
  cases other
  simp only [mk.injEq]
  exact ⟨h .goe, h .wf, h .bs⟩

end PerStation

structure Reading where
  station : Station
  temperature : Binary32
  humidity : Binary32
  time : UInt32
  deriving DecidableEq

end StationRelay
