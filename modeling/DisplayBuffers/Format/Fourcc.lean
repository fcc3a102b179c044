/-! Pixel format codes. A format is named by its fourcc or, for the two formats that buffers can be
allocated with, by a bare small number; `canonical` maps the second spelling onto the first. -/
namespace DisplayBuffers

/-- A format code in either spelling, known or not. -/
abbrev FormatCode := UInt32

/-- The formats that buffers can be allocated with, both with 32 bits per pixel. -/
inductive PixelFormat where
  | xrgb8888
  | argb8888
  deriving DecidableEq, Repr

/-- The fourcc of a format: the characters `XR24` and `AR24`, least significant byte first. -/
def PixelFormat.code : PixelFormat → FormatCode
  | .xrgb8888 => 875713112
  | .argb8888 => 875713089

/-- Maps the bare numbers 0 and 1 onto the fourcc they stand for and leaves other codes alone. -/
def FormatCode.canonical (code : FormatCode) : FormatCode :=
  if code = 0 then PixelFormat.xrgb8888.code
  else if code = 1 then PixelFormat.argb8888.code
  else code

/-- The format that a code names in either spelling, if buffers can be allocated with it. -/
def PixelFormat.ofCode? (code : FormatCode) : Option PixelFormat :=
  if code.canonical = PixelFormat.xrgb8888.code then some .xrgb8888
  else if code.canonical = PixelFormat.argb8888.code then some .argb8888
  else none

namespace Fourcc

/-- The registered fourcc codes. -/
def registered : List UInt32 :=
  [892420673, 1211384385, 808665665, 842089025, 875708993, 892424769, 1211388481, 808669761,
    842093121, 875713089, 808534593, 1448433985, 944916290, 909199170, 943797570, 875710274,
    943798338, 808665410, 842088770, 892420418, 875708738, 808671298, 842094658, 892426306,
    875714626, 943806530, 2147483648, 538982467, 842224199, 943215175, 842094158, 892425806,
    909203022, 825382478, 875714126, 842290766, 825644622, 808530000, 842084432, 909193296,
    808530512, 825242705, 808531025, 540422482, 538982482, 842221394, 943212370, 943867730,
    909199186, 943797586, 875710290, 943798354, 808665426, 842088786, 892420434, 875708754,
    808671314, 842094674, 892426322, 875714642, 943806546, 1498831189, 808670550, 875713878,
    1498765654, 810299480, 843853912, 892420696, 1211384408, 808665688, 842089048, 875709016,
    943800920, 892424792, 1211388504, 808669784, 842093144, 875713112, 943805016, 909334104,
    942954072, 808670808, 1448434008, 810299481, 843853913, 808530521, 842084953, 909193817,
    808531033, 842085465, 909194329, 961959257, 825316697, 842093913, 808539481, 942691673,
    909202777, 875713881, 1448695129, 961893977, 825316953, 842094169, 909203033, 875714137,
    1431918169]

end Fourcc

/-- A registered fourcc code. -/
structure Fourcc where
  code : UInt32
  known : code ∈ Fourcc.registered
  deriving DecidableEq

/-- Reads a fourcc; the bare numbers are not among them. -/
def Fourcc.ofCode? (code : UInt32) : Option Fourcc :=
  if h : code ∈ registered then some ⟨code, h⟩ else none

/-- The registered fourcc that a format code names in either spelling. -/
def FormatCode.fourcc? (code : FormatCode) : Option Fourcc := Fourcc.ofCode? code.canonical

end DisplayBuffers
