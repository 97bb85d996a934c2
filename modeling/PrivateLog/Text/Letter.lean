import PrivateLog.Text.Identifier

/-!
# Letters and digits

The Unicode property Alphabetic and the numeric general categories. The letters are the characters an identifier may
begin with, less two symbols that only look back to old identifiers, and the dependent vowel signs and enclosed letters
that an identifier may not begin with.
-/

namespace PrivateLog.Text

/-- The characters of the Unicode property Alphabetic that are not in XID_Start. -/
def dependentLetters : CodePoints where
  boundaries := [
    837, 838, 890, 891, 1456, 1470, 1471, 1472, 1473, 1475, 1476, 1478, 1479, 1480, 1552, 1563, 1611, 1624, 1625,
    1632, 1648, 1649, 1750, 1757, 1761, 1765, 1767, 1769, 1773, 1774, 1809, 1810, 1840, 1856, 1958, 1969, 2070,
    2072, 2075, 2084, 2085, 2088, 2089, 2093, 2260, 2272, 2275, 2282, 2288, 2308, 2362, 2364, 2366, 2381, 2382,
    2384, 2389, 2392, 2402, 2404, 2433, 2436, 2494, 2501, 2503, 2505, 2507, 2509, 2519, 2520, 2530, 2532, 2561,
    2564, 2622, 2627, 2631, 2633, 2635, 2637, 2641, 2642, 2672, 2674, 2677, 2678, 2689, 2692, 2750, 2758, 2759,
    2762, 2763, 2765, 2786, 2788, 2810, 2813, 2817, 2820, 2878, 2885, 2887, 2889, 2891, 2893, 2902, 2904, 2914,
    2916, 2946, 2947, 3006, 3011, 3014, 3017, 3018, 3021, 3031, 3032, 3072, 3077, 3134, 3141, 3142, 3145, 3146,
    3149, 3157, 3159, 3170, 3172, 3201, 3204, 3262, 3269, 3270, 3273, 3274, 3277, 3285, 3287, 3298, 3300, 3315,
    3316, 3328, 3332, 3390, 3397, 3398, 3401, 3402, 3405, 3415, 3416, 3426, 3428, 3457, 3460, 3535, 3541, 3542,
    3543, 3544, 3552, 3570, 3572, 3633, 3634, 3635, 3643, 3661, 3662, 3761, 3762, 3763, 3770, 3771, 3773, 3789,
    3790, 3953, 3972, 3981, 3992, 3993, 4029, 4139, 4151, 4152, 4153, 4155, 4159, 4182, 4186, 4190, 4193, 4194,
    4197, 4199, 4206, 4209, 4213, 4226, 4238, 4239, 4240, 4250, 4254, 5906, 5908, 5938, 5940, 5970, 5972, 6002,
    6004, 6070, 6089, 6313, 6314, 6432, 6444, 6448, 6457, 6679, 6684, 6741, 6751, 6753, 6773, 6847, 6849, 6860,
    6863, 6912, 6917, 6965, 6980, 7040, 7043, 7073, 7082, 7084, 7086, 7143, 7154, 7204, 7223, 7655, 7669, 9398,
    9450, 11744, 11776, 11823, 11824, 42612, 42620, 42654, 42656, 43010, 43011, 43019, 43020, 43043, 43048, 43136,
    43138, 43188, 43204, 43205, 43206, 43263, 43264, 43302, 43307, 43335, 43347, 43392, 43396, 43444, 43456, 43493,
    43494, 43561, 43575, 43587, 43588, 43596, 43598, 43643, 43646, 43696, 43697, 43698, 43701, 43703, 43705, 43710,
    43711, 43755, 43760, 43765, 43766, 44003, 44011, 64286, 64287, 64606, 64612, 65018, 65020, 65136, 65137, 65138,
    65139, 65140, 65141, 65142, 65143, 65144, 65145, 65146, 65147, 65148, 65149, 65150, 65151, 65438, 65440, 66422,
    66427, 68097, 68100, 68101, 68103, 68108, 68112, 68900, 68904, 69291, 69293, 69632, 69635, 69688, 69702, 69747,
    69749, 69760, 69763, 69808, 69817, 69826, 69827, 69888, 69891, 69927, 69939, 69957, 69959, 70016, 70019, 70067,
    70080, 70094, 70096, 70188, 70197, 70199, 70200, 70206, 70207, 70209, 70210, 70367, 70377, 70400, 70404, 70462,
    70469, 70471, 70473, 70475, 70477, 70487, 70488, 70498, 70500, 70709, 70722, 70723, 70726, 70832, 70850, 71087,
    71094, 71096, 71103, 71132, 71134, 71216, 71231, 71232, 71233, 71339, 71350, 71453, 71467, 71724, 71737, 71984,
    71990, 71991, 71993, 71995, 71997, 72000, 72001, 72002, 72003, 72145, 72152, 72154, 72160, 72164, 72165, 72193,
    72203, 72245, 72250, 72251, 72255, 72273, 72284, 72330, 72344, 72751, 72759, 72760, 72767, 72850, 72872, 72873,
    72887, 73009, 73015, 73018, 73019, 73020, 73022, 73023, 73026, 73027, 73028, 73031, 73032, 73098, 73103, 73104,
    73106, 73107, 73111, 73459, 73463, 73472, 73474, 73475, 73476, 73524, 73531, 73534, 73537, 94031, 94032, 94033,
    94088, 94095, 94099, 94192, 94194, 113822, 113823, 122880, 122887, 122888, 122905, 122907, 122914, 122915,
    122917, 122918, 122923, 123023, 123024, 125255, 125256, 127280, 127306, 127312, 127338, 127344, 127370]

/-- The general categories Nd, Nl and No. -/
def numbers : CodePoints where
  boundaries := [
    48, 58, 178, 180, 185, 186, 188, 191, 1632, 1642, 1776, 1786, 1984, 1994, 2406, 2416, 2534, 2544, 2548, 2554,
    2662, 2672, 2790, 2800, 2918, 2928, 2930, 2936, 3046, 3059, 3174, 3184, 3192, 3199, 3302, 3312, 3416, 3423,
    3430, 3449, 3558, 3568, 3664, 3674, 3792, 3802, 3872, 3892, 4160, 4170, 4240, 4250, 4969, 4989, 5870, 5873,
    6112, 6122, 6128, 6138, 6160, 6170, 6470, 6480, 6608, 6619, 6784, 6794, 6800, 6810, 6992, 7002, 7088, 7098,
    7232, 7242, 7248, 7258, 8304, 8305, 8308, 8314, 8320, 8330, 8528, 8579, 8581, 8586, 9312, 9372, 9450, 9472,
    10102, 10132, 11517, 11518, 12295, 12296, 12321, 12330, 12344, 12347, 12690, 12694, 12832, 12842, 12872, 12880,
    12881, 12896, 12928, 12938, 12977, 12992, 42528, 42538, 42726, 42736, 43056, 43062, 43216, 43226, 43264, 43274,
    43472, 43482, 43504, 43514, 43600, 43610, 44016, 44026, 65296, 65306, 65799, 65844, 65856, 65913, 65930, 65932,
    66273, 66300, 66336, 66340, 66369, 66370, 66378, 66379, 66513, 66518, 66720, 66730, 67672, 67680, 67705, 67712,
    67751, 67760, 67835, 67840, 67862, 67868, 68028, 68030, 68032, 68048, 68050, 68096, 68160, 68169, 68221, 68223,
    68253, 68256, 68331, 68336, 68440, 68448, 68472, 68480, 68521, 68528, 68858, 68864, 68912, 68922, 69216, 69247,
    69405, 69415, 69457, 69461, 69573, 69580, 69714, 69744, 69872, 69882, 69942, 69952, 70096, 70106, 70113, 70133,
    70384, 70394, 70736, 70746, 70864, 70874, 71248, 71258, 71360, 71370, 71472, 71484, 71904, 71923, 72016, 72026,
    72784, 72813, 73040, 73050, 73120, 73130, 73552, 73562, 73664, 73685, 74752, 74863, 92768, 92778, 92864, 92874,
    93008, 93018, 93019, 93026, 93824, 93847, 119488, 119508, 119520, 119540, 119648, 119673, 120782, 120832,
    123200, 123210, 123632, 123642, 124144, 124154, 125127, 125136, 125264, 125274, 126065, 126124, 126125, 126128,
    126129, 126133, 126209, 126254, 126255, 126270, 127232, 127245, 130032, 130042]

/-- The two characters of XID_Start that are no letters: the script capital p and the estimated sign. -/
def isLetterlike (c : Char) : Bool :=
  c.toNat == 0x2118 || c.toNat == 0x212E

/-- The Unicode property Alphabetic. -/
def isAlphabetic (c : Char) : Bool :=
  if c.toNat < 128 then c.isAlpha
  else (identifierStarts.contains c && !isLetterlike c) || dependentLetters.contains c

/-- Whether the general category of a character is one of the numeric ones. -/
def isNumeric (c : Char) : Bool :=
  if c.toNat < 128 then c.isDigit else numbers.contains c

/-- Letters and numbers. -/
def isAlphanumeric (c : Char) : Bool :=
  isAlphabetic c || isNumeric c

end PrivateLog.Text
