/-
  The characters of names in templates, and which runs of them are names.

  A run of name characters is a name if it is an identifier. Two names with the same normal form are
  one, so a template that holds both is not in the language; a name that `isSettled` is its own
  normal form.
-/
import Scaffold.Text.Alphanumeric

namespace Scaffold.Text

/-- Characters of names besides those of a word: marks of all scripts and a few signs. -/
def marks : Ranges :=
  [(183, 183), (768, 879), (903, 903), (1155, 1159), (1425, 1469), (1471, 1471), (1473, 1474),
   (1476, 1477), (1479, 1479), (1552, 1562), (1611, 1631), (1648, 1648), (1750, 1756),
   (1759, 1764), (1767, 1768), (1770, 1773), (1809, 1809), (1840, 1866), (1958, 1968),
   (2027, 2035), (2070, 2073), (2075, 2083), (2085, 2087), (2089, 2093), (2137, 2139),
   (2260, 2273), (2275, 2307), (2362, 2364), (2366, 2383), (2385, 2391), (2402, 2403),
   (2433, 2435), (2492, 2492), (2494, 2500), (2503, 2504), (2507, 2509), (2519, 2519),
   (2530, 2531), (2561, 2563), (2620, 2620), (2622, 2626), (2631, 2632), (2635, 2637),
   (2641, 2641), (2672, 2673), (2677, 2677), (2689, 2691), (2748, 2748), (2750, 2757),
   (2759, 2761), (2763, 2765), (2786, 2787), (2817, 2819), (2876, 2876), (2878, 2884),
   (2887, 2888), (2891, 2893), (2902, 2903), (2914, 2915), (2946, 2946), (3006, 3010),
   (3014, 3016), (3018, 3021), (3031, 3031), (3072, 3075), (3134, 3140), (3142, 3144),
   (3146, 3149), (3157, 3158), (3170, 3171), (3201, 3203), (3260, 3260), (3262, 3268),
   (3270, 3272), (3274, 3277), (3285, 3286), (3298, 3299), (3329, 3331), (3390, 3396),
   (3398, 3400), (3402, 3405), (3415, 3415), (3426, 3427), (3458, 3459), (3530, 3530),
   (3535, 3540), (3542, 3542), (3544, 3551), (3570, 3571), (3633, 3633), (3636, 3642),
   (3655, 3662), (3761, 3761), (3764, 3769), (3771, 3772), (3784, 3789), (3864, 3865),
   (3893, 3893), (3895, 3895), (3897, 3897), (3902, 3903), (3953, 3972), (3974, 3975),
   (3981, 3991), (3993, 4028), (4038, 4038), (4139, 4158), (4182, 4185), (4190, 4192),
   (4194, 4196), (4199, 4205), (4209, 4212), (4226, 4237), (4239, 4239), (4250, 4253),
   (4957, 4959), (5906, 5908), (5938, 5940), (5970, 5971), (6002, 6003), (6068, 6099),
   (6109, 6109), (6155, 6157), (6277, 6278), (6313, 6313), (6432, 6443), (6448, 6459),
   (6679, 6683), (6741, 6750), (6752, 6780), (6783, 6783), (6832, 6845), (6912, 6916),
   (6964, 6980), (7019, 7027), (7040, 7042), (7073, 7085), (7142, 7155), (7204, 7223),
   (7376, 7378), (7380, 7400), (7405, 7405), (7412, 7412), (7416, 7417), (7616, 7669),
   (7675, 7679), (8255, 8256), (8276, 8276), (8400, 8412), (8417, 8417), (8421, 8432),
   (8472, 8472), (8494, 8494), (11503, 11505), (11647, 11647), (11744, 11775), (12330, 12335),
   (12441, 12442), (42607, 42607), (42612, 42621), (42654, 42655), (42736, 42737), (43010, 43010),
   (43014, 43014), (43019, 43019), (43043, 43047), (43136, 43137), (43188, 43205), (43232, 43249),
   (43302, 43309), (43335, 43347), (43392, 43395), (43443, 43456), (43493, 43493), (43561, 43574),
   (43587, 43587), (43596, 43597), (43643, 43645), (43696, 43696), (43698, 43700), (43703, 43704),
   (43710, 43711), (43713, 43713), (43755, 43759), (43765, 43766), (44003, 44010), (44012, 44013),
   (64286, 64286), (65024, 65039), (65056, 65071), (65075, 65076), (65101, 65103), (65343, 65343),
   (66045, 66045), (66272, 66272), (66422, 66426), (68097, 68099), (68101, 68102), (68108, 68111),
   (68152, 68154), (68159, 68159), (68325, 68326), (69632, 69634), (69688, 69702), (69759, 69762),
   (69808, 69818), (69888, 69890), (69927, 69940), (70003, 70003), (70016, 70018), (70067, 70080),
   (70089, 70092), (70188, 70199), (70206, 70206), (70367, 70378), (70400, 70403), (70460, 70460),
   (70462, 70468), (70471, 70472), (70475, 70477), (70487, 70487), (70498, 70499), (70502, 70508),
   (70512, 70516), (70709, 70726), (70832, 70851), (71087, 71093), (71096, 71104), (71132, 71133),
   (71216, 71232), (71339, 71351), (71453, 71467), (72751, 72758), (72760, 72767), (72850, 72871),
   (72873, 72886), (92912, 92916), (92976, 92982), (94033, 94078), (94095, 94098),
   (113821, 113822), (119141, 119145), (119149, 119154), (119163, 119170), (119173, 119179),
   (119210, 119213), (119362, 119364), (121344, 121398), (121403, 121452), (121461, 121461),
   (121476, 121476), (121499, 121503), (121505, 121519), (122880, 122886), (122888, 122904),
   (122907, 122913), (122915, 122916), (122918, 122922), (125136, 125142), (125252, 125258),
   (917760, 917999)]

/-- Characters of a word that no identifier has: numbers that are no digits, and a few letters. -/
def wordOnly : Ranges :=
  [(178, 179), (185, 185), (188, 190), (890, 890), (2548, 2553), (2930, 2935), (3056, 3058),
   (3192, 3198), (3416, 3422), (3440, 3448), (3882, 3891), (4978, 4988), (6128, 6137),
   (8304, 8304), (8308, 8313), (8320, 8329), (8528, 8543), (8585, 8585), (9312, 9371),
   (9450, 9471), (10102, 10131), (11517, 11517), (11823, 11823), (12690, 12693), (12832, 12841),
   (12872, 12879), (12881, 12895), (12928, 12937), (12977, 12991), (43056, 43061), (64606, 64611),
   (65018, 65019), (65136, 65136), (65138, 65138), (65140, 65140), (65142, 65142), (65144, 65144),
   (65146, 65146), (65148, 65148), (65150, 65150), (65799, 65843), (65909, 65912), (65930, 65931),
   (66273, 66299), (66336, 66339), (67672, 67679), (67705, 67711), (67751, 67759), (67835, 67839),
   (67862, 67867), (68028, 68029), (68032, 68047), (68050, 68095), (68160, 68168), (68221, 68222),
   (68253, 68255), (68331, 68335), (68440, 68447), (68472, 68479), (68521, 68527), (68858, 68863),
   (69216, 69246), (69405, 69414), (69457, 69460), (69573, 69579), (69714, 69733), (70113, 70132),
   (71482, 71483), (71914, 71922), (72794, 72812), (73664, 73684), (93019, 93025), (93824, 93846),
   (119520, 119539), (119648, 119672), (125127, 125135), (126065, 126123), (126125, 126127),
   (126129, 126132), (126209, 126253), (126255, 126269), (127232, 127244)]

/-- Characters of a word that an identifier has, but not in front: digits and a few letters. -/
def innerOnly : Ranges :=
  [(48, 57), (1632, 1641), (1776, 1785), (1984, 1993), (2406, 2415), (2534, 2543), (2662, 2671),
   (2790, 2799), (2918, 2927), (3046, 3055), (3174, 3183), (3302, 3311), (3430, 3439),
   (3558, 3567), (3635, 3635), (3664, 3673), (3763, 3763), (3792, 3801), (3872, 3881),
   (4160, 4169), (4240, 4249), (4969, 4977), (6112, 6121), (6160, 6169), (6470, 6479),
   (6608, 6618), (6784, 6793), (6800, 6809), (6992, 7001), (7088, 7097), (7232, 7241),
   (7248, 7257), (42528, 42537), (43216, 43225), (43264, 43273), (43472, 43481), (43504, 43513),
   (43600, 43609), (44016, 44025), (65296, 65305), (65438, 65439), (66720, 66729), (68912, 68921),
   (69734, 69743), (69872, 69881), (69942, 69951), (70096, 70105), (70384, 70393), (70736, 70745),
   (70864, 70873), (71248, 71257), (71360, 71369), (71472, 71481), (71904, 71913), (72016, 72025),
   (72784, 72793), (73040, 73049), (73120, 73129), (92768, 92777), (92864, 92873), (93008, 93017),
   (120782, 120831), (123200, 123209), (123632, 123641), (125264, 125273), (130032, 130041)]

/-- Marks that may stand in front of an identifier. -/
def leadingMarks : Ranges := [(6277, 6278), (8472, 8472), (8494, 8494)]

/-- A character that a run of name characters goes on with. -/
def isNameChar (c : Char) : Bool :=
  isWord c || marks.contains c.toNat

/-- A name character that may stand in front of an identifier. -/
def startsIdentifier (c : Char) : Bool :=
  if isWord c then !wordOnly.contains c.toNat && !innerOnly.contains c.toNat
  else leadingMarks.contains c.toNat

/-- Whether a run of name characters is an identifier. -/
def isIdentifier : List Char → Bool
  | [] => false
  | c :: cs => startsIdentifier c && cs.all fun d => !wordOnly.contains d.toNat

/-! ## Normal forms -/

/-- Characters of names that have another normal form, or may be joined with the one before. -/
def unsettled : Ranges :=
  [(170, 170), (181, 181), (186, 186), (306, 307), (319, 320), (329, 329), (383, 383), (452, 460),
   (497, 499), (688, 696), (736, 740), (768, 772), (774, 780), (783, 783), (785, 785), (787, 788),
   (795, 795), (803, 808), (813, 814), (816, 817), (824, 824), (832, 837), (884, 884), (903, 903),
   (976, 982), (1008, 1010), (1012, 1013), (1017, 1017), (1415, 1415), (1619, 1621), (1653, 1656),
   (2364, 2364), (2392, 2399), (2494, 2494), (2519, 2519), (2524, 2525), (2527, 2527),
   (2611, 2611), (2614, 2614), (2649, 2651), (2654, 2654), (2878, 2878), (2902, 2903),
   (2908, 2909), (3006, 3006), (3031, 3031), (3158, 3158), (3266, 3266), (3285, 3286),
   (3390, 3390), (3415, 3415), (3530, 3530), (3535, 3535), (3551, 3551), (3635, 3635),
   (3763, 3763), (3804, 3805), (3907, 3907), (3917, 3917), (3922, 3922), (3927, 3927),
   (3932, 3932), (3945, 3945), (3955, 3955), (3957, 3961), (3969, 3969), (3987, 3987),
   (3997, 3997), (4002, 4002), (4007, 4007), (4012, 4012), (4025, 4025), (4142, 4142),
   (4348, 4348), (4449, 4469), (4520, 4546), (6965, 6965), (7468, 7470), (7472, 7482),
   (7484, 7501), (7503, 7530), (7544, 7544), (7579, 7615), (7834, 7835), (8049, 8049),
   (8051, 8051), (8053, 8053), (8055, 8055), (8057, 8057), (8059, 8059), (8061, 8061),
   (8123, 8123), (8126, 8126), (8137, 8137), (8139, 8139), (8147, 8147), (8155, 8155),
   (8163, 8163), (8171, 8171), (8185, 8185), (8187, 8187), (8305, 8305), (8319, 8319),
   (8336, 8348), (8450, 8450), (8455, 8455), (8458, 8467), (8469, 8469), (8473, 8477),
   (8484, 8484), (8486, 8486), (8488, 8488), (8490, 8493), (8495, 8497), (8499, 8505),
   (8508, 8511), (8517, 8521), (8544, 8575), (11388, 11389), (11631, 11631), (12344, 12346),
   (12441, 12442), (12447, 12447), (12543, 12543), (12593, 12686), (42652, 42653), (42864, 42864),
   (42994, 42996), (43000, 43001), (43868, 43871), (43881, 43881), (63744, 64013), (64016, 64016),
   (64018, 64018), (64021, 64030), (64032, 64032), (64034, 64034), (64037, 64038), (64042, 64109),
   (64112, 64217), (64256, 64262), (64275, 64279), (64285, 64285), (64287, 64296), (64298, 64310),
   (64312, 64316), (64318, 64318), (64320, 64321), (64323, 64324), (64326, 64433), (64467, 64605),
   (64612, 64829), (64848, 64911), (64914, 64967), (65008, 65017), (65075, 65076), (65101, 65103),
   (65137, 65137), (65143, 65143), (65145, 65145), (65147, 65147), (65149, 65149), (65151, 65276),
   (65296, 65305), (65313, 65338), (65343, 65343), (65345, 65370), (65382, 65470), (65474, 65479),
   (65482, 65487), (65490, 65495), (65498, 65500), (67457, 67461), (67463, 67504), (67506, 67514),
   (69818, 69818), (69927, 69927), (70462, 70462), (70487, 70487), (70832, 70832), (70842, 70842),
   (70845, 70845), (71087, 71087), (119808, 119892), (119894, 119964), (119966, 119967),
   (119970, 119970), (119973, 119974), (119977, 119980), (119982, 119993), (119995, 119995),
   (119997, 120003), (120005, 120069), (120071, 120074), (120077, 120084), (120086, 120092),
   (120094, 120121), (120123, 120126), (120128, 120132), (120134, 120134), (120138, 120144),
   (120146, 120485), (120488, 120512), (120514, 120538), (120540, 120570), (120572, 120596),
   (120598, 120628), (120630, 120654), (120656, 120686), (120688, 120712), (120714, 120744),
   (120746, 120770), (120772, 120779), (120782, 120831), (126464, 126467), (126469, 126495),
   (126497, 126498), (126500, 126500), (126503, 126503), (126505, 126514), (126516, 126519),
   (126521, 126521), (126523, 126523), (126530, 126530), (126535, 126535), (126537, 126537),
   (126539, 126539), (126541, 126543), (126545, 126546), (126548, 126548), (126551, 126551),
   (126553, 126553), (126555, 126555), (126557, 126557), (126559, 126559), (126561, 126562),
   (126564, 126564), (126567, 126570), (126572, 126578), (126580, 126583), (126585, 126588),
   (126590, 126590), (126592, 126601), (126603, 126619), (126625, 126627), (126629, 126633),
   (126635, 126651), (130032, 130041), (194560, 195101)]

/-- Marks that may change places with others next to them, those that are unsettled apart. -/
def combining : Ranges :=
  [(773, 773), (781, 782), (784, 784), (786, 786), (789, 794), (796, 802), (809, 812), (815, 815),
   (818, 823), (825, 831), (838, 846), (848, 879), (1155, 1159), (1425, 1469), (1471, 1471),
   (1473, 1474), (1476, 1477), (1479, 1479), (1552, 1562), (1611, 1618), (1622, 1631),
   (1648, 1648), (1750, 1756), (1759, 1764), (1767, 1768), (1770, 1773), (1809, 1809),
   (1840, 1866), (2027, 2035), (2070, 2073), (2075, 2083), (2085, 2087), (2089, 2093),
   (2137, 2139), (2260, 2273), (2275, 2303), (2381, 2381), (2385, 2388), (2492, 2492),
   (2509, 2509), (2620, 2620), (2637, 2637), (2748, 2748), (2765, 2765), (2876, 2876),
   (2893, 2893), (3021, 3021), (3149, 3149), (3157, 3157), (3260, 3260), (3277, 3277),
   (3405, 3405), (3640, 3642), (3656, 3659), (3768, 3769), (3784, 3787), (3864, 3865),
   (3893, 3893), (3895, 3895), (3897, 3897), (3953, 3954), (3956, 3956), (3962, 3965),
   (3968, 3968), (3970, 3972), (3974, 3975), (4038, 4038), (4151, 4151), (4153, 4154),
   (4237, 4237), (4957, 4959), (5908, 5908), (5940, 5940), (6098, 6098), (6109, 6109),
   (6313, 6313), (6457, 6459), (6679, 6680), (6752, 6752), (6773, 6780), (6783, 6783),
   (6832, 6845), (6964, 6964), (6980, 6980), (7019, 7027), (7082, 7083), (7142, 7142),
   (7154, 7155), (7223, 7223), (7376, 7378), (7380, 7392), (7394, 7400), (7405, 7405),
   (7412, 7412), (7416, 7417), (7616, 7669), (7675, 7679), (8400, 8412), (8417, 8417),
   (8421, 8432), (11503, 11505), (11647, 11647), (11744, 11775), (12330, 12335), (42607, 42607),
   (42612, 42621), (42654, 42655), (42736, 42737), (43014, 43014), (43204, 43204), (43232, 43249),
   (43307, 43309), (43347, 43347), (43443, 43443), (43456, 43456), (43696, 43696), (43698, 43700),
   (43703, 43704), (43710, 43711), (43713, 43713), (43766, 43766), (44013, 44013), (64286, 64286),
   (65056, 65071), (66045, 66045), (66272, 66272), (66422, 66426), (68109, 68109), (68111, 68111),
   (68152, 68154), (68159, 68159), (68325, 68326), (69702, 69702), (69759, 69759), (69817, 69817),
   (69888, 69890), (69939, 69940), (70003, 70003), (70080, 70080), (70090, 70090), (70197, 70198),
   (70377, 70378), (70460, 70460), (70477, 70477), (70502, 70508), (70512, 70516), (70722, 70722),
   (70726, 70726), (70850, 70851), (71103, 71104), (71231, 71231), (71350, 71351), (71467, 71467),
   (72767, 72767), (92912, 92916), (92976, 92982), (113822, 113822), (119141, 119145),
   (119149, 119154), (119163, 119170), (119173, 119179), (119210, 119213), (119362, 119364),
   (122880, 122886), (122888, 122904), (122907, 122913), (122915, 122916), (122918, 122922),
   (125136, 125142), (125252, 125258)]

/-- Whether no mark stands next to another one that it may change places with. -/
def marksApart : List Char → Bool
  | c :: d :: rest =>
    !(combining.contains c.toNat && combining.contains d.toNat) && marksApart (d :: rest)
  | _ => true

/-- Whether it can be seen from its characters that a name is its own normal form. -/
def isSettled (cs : List Char) : Bool :=
  cs.all (fun c => !unsettled.contains c.toNat) && marksApart cs

end Scaffold.Text
