import Mathlib.Data.Option.Basic

/-!
# Settings

A setting is read from a text that may be missing, and always has a value. `Setting` holds a reader, a writer and
the values that the reader gives, each of which is read from what is written of it.

* `Setting.parsed`: the default stands in for a text that cannot be parsed.
* `Setting.total`: it stands in only where the text is missing.
* `Setting.filtered`: and also where the text gives a value that is not wanted.
-/

structure Setting (α : Type) where
  read : Option String → α
  write : α → String
  Valid : α → Prop
  valid_read : ∀ value, Valid (read value)
  read_write : ∀ a, Valid a → read (some (write a)) = a

namespace Setting

/-- A value is read back wherever it was written. -/
theorem read_back {α : Type} (setting : Setting α) {value : Option String} {a : α} (ha : setting.Valid a)
    (hvalue : value = some (setting.write a)) : setting.read value = a :=
  hvalue ▸ setting.read_write a ha

variable {α : Type} (write : α → String) (Valid : α → Prop) (defaultValue : α)

def parsed (parse : String → Option α) (hdefault : Valid defaultValue)
    (hparse : ∀ raw a, parse raw = some a → Valid a) (hwrite : ∀ a, Valid a → parse (write a) = some a) : Setting α where
  read value := (value.bind parse).getD defaultValue
  write := write
  Valid := Valid
  valid_read value := by
    rcases hvalue : value.bind parse with _ | a
    · exact hdefault
    · obtain ⟨raw, -, hraw⟩ := Option.bind_eq_some_iff.mp hvalue
      exact hparse raw a hraw
  read_write a ha := by rw [Option.bind_some, hwrite a ha, Option.getD_some]

def total (parse : String → α) (hdefault : Valid defaultValue) (hparse : ∀ raw, Valid (parse raw))
    (hwrite : ∀ a, Valid a → parse (write a) = a) : Setting α where
  read value := (value.map parse).getD defaultValue
  write := write
  Valid := Valid
  valid_read value := by
    rcases value with _ | raw
    · exact hdefault
    · exact hparse raw
  read_write a ha := hwrite a ha

def filtered (parse : String → α) (wanted : α → Bool) (hdefault : Valid defaultValue)
    (hparse : ∀ raw, wanted (parse raw) = true → Valid (parse raw))
    (hwrite : ∀ a, Valid a → wanted a = true ∧ parse (write a) = a) : Setting α where
  read value := ((value.map parse).filter wanted).getD defaultValue
  write := write
  Valid := Valid
  valid_read value := by
    rcases hvalue : (value.map parse).filter wanted with _ | a
    · exact hdefault
    · obtain ⟨hmap, hwanted⟩ := Option.filter_eq_some_iff.mp hvalue
      obtain ⟨raw, -, rfl⟩ := Option.map_eq_some_iff.mp hmap
      exact hparse raw hwanted
  read_write a ha := by
    obtain ⟨hwanted, hparse⟩ := hwrite a ha
    rw [Option.map_some, hparse, Option.filter_some, if_pos hwanted, Option.getD_some]

end Setting
