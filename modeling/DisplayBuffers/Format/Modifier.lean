/-! Layout modifiers and the names they print under. -/
namespace DisplayBuffers

structure Modifier where
  value : UInt64
  deriving DecidableEq, Repr

namespace Modifier

/-- Rows one after the other. -/
def linear : Modifier := ⟨0⟩

/-- No explicit layout. -/
def invalid : Modifier := ⟨72057594037927935⟩

/-- The layouts that need no description. -/
def isTrivial (m : Modifier) : Bool := m = linear || m = invalid

def registered : List (UInt64 × String) :=
  [(648518346341351425, "Allwinner_tiled"),
    (504403158265495556, "Broadcom_sand128"),
    (504403158265495557, "Broadcom_sand256"),
    (504403158265495554, "Broadcom_sand32"),
    (504403158265495555, "Broadcom_sand64"),
    (504403158265495558, "Broadcom_uif"),
    (504403158265495553, "Broadcom_vc4_t_tiled"),
    (288230376151711746, "Generic_16_16_tile"),
    (72057594037927935, "Invalid"),
    (0, "Linear"),
    (216172782113783827, "Nvidia_16bx2_block_eight_gob"),
    (216172782113783826, "Nvidia_16bx2_block_four_gob"),
    (216172782113783824, "Nvidia_16bx2_block_one_gob"),
    (216172782113783828, "Nvidia_16bx2_block_sixteen_gob"),
    (216172782113783829, "Nvidia_16bx2_block_thirtytwo_gob"),
    (216172782113783825, "Nvidia_16bx2_block_two_gob"),
    (216172782113783809, "Nvidia_tegra_tiled"),
    (360287970189639681, "Qcom_compressed"),
    (288230376151711745, "Samsung_64_32_tile"),
    (432345564227567620, "Vivante_split_super_tiled"),
    (432345564227567619, "Vivante_split_tiled"),
    (432345564227567618, "Vivante_super_tiled"),
    (432345564227567617, "Vivante_tiled"),
    (72057594037927937, "I915_x_tiled"),
    (72057594037927938, "I915_y_tiled"),
    (72057594037927940, "I915_y_tiled_ccs"),
    (72057594037927943, "I915_y_tiled_gen12_mc_ccs"),
    (72057594037927942, "I915_y_tiled_gen12_rc_ccs")]

def name (m : Modifier) : String :=
  match registered.lookup m.value with
  | some s => s
  | none => "Unrecognized(" ++ toString m.value.toNat ++ ")"

end Modifier
end DisplayBuffers
